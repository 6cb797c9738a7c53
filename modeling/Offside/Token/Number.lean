import Offside.Text.Alphabet
import Offside.Token.Kind

/-!
# Numerals

A numeral is a whole number in base ten, sixteen (`0x`) or eight (`0o`), or a
number with a fraction, an exponent or both.  Underscores may stand anywhere
after the first digit of a group.  All functions here measure, in characters,
how far a form reaches from the front of a text.
-/

namespace Offside.Token

open Offside.Text

def runLength (test : Char → Bool) (text : List Char) : Nat :=
  (text.takeWhile test).length

/-- A digit of some base, followed by digits and underscores. -/
def groupLength? (isBaseDigit : Char → Bool) : List Char → Option Nat
  | [] => none
  | first :: rest =>
    if isBaseDigit first then
      some (1 + runLength (fun char => isBaseDigit char || char = '_') rest)
    else none

/-- A whole number in base sixteen or eight, with its mark. -/
def radixLength? : List Char → Option Nat
  | '0' :: 'x' :: digits => (groupLength? isHexDigit digits).map (2 + ·)
  | '0' :: 'o' :: digits => (groupLength? isOctalDigit digits).map (2 + ·)
  | _ => none

def fractionLength? : List Char → Option Nat
  | '.' :: digits => (groupLength? isDigit digits).map (1 + ·)
  | _ => none

/-- An exponent: its letter, an optional sign, and digits. -/
def exponentLength? : List Char → Option Nat
  | mark :: rest =>
    if mark = 'e' || mark = 'E' then
      match rest with
      | '+' :: digits => (groupLength? isDigit digits).map (2 + ·)
      | '-' :: digits => (groupLength? isDigit digits).map (2 + ·)
      | digits => (groupLength? isDigit digits).map (1 + ·)
    else none
  | [] => none

/-- What follows the leading digits of a number: a fraction, an exponent, or both. -/
def tailLength? (text : List Char) : Option Nat :=
  match fractionLength? text with
  | some length => some (length + (exponentLength? (text.drop length)).getD 0)
  | none => exponentLength? text

/-- The kind and length of the longest numeral at the front of a text. -/
def numeral (text : List Char) : TokenKind × Nat :=
  match radixLength? text with
  | some length => (.integer, length)
  | none =>
    match groupLength? isDigit text with
    | none => (.integer, 0)
    | some length =>
      match tailLength? (text.drop length) with
      | some tail => (.number, length + tail)
      | none => (.integer, length)

end Offside.Token
