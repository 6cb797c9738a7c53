import Offside.Literal.Binary64
import Offside.Literal.Digits

/-!
# Values of numerals

A whole number has a value when it fits into 64 bits with a sign.  A number
with a point or exponent has the value of the nearest double.  Underscores
only help the reader.
-/

namespace Offside.Literal

open Offside.Text

def withoutSeparators (text : String) : List Char :=
  text.toList.filter (· ≠ '_')

/-- The value of a whole number in base ten, sixteen (`0x`) or eight (`0o`). -/
def integer? (text : String) : Option Int :=
  match withoutSeparators text with
  | '0' :: 'x' :: digits => signed64? 16 digits
  | '0' :: 'o' :: digits => signed64? 8 digits
  | digits => signed64? 10 digits

def byte? (text : String) : Option Nat :=
  match integer? text with
  | some (.ofNat value) => if value < 256 then some value else none
  | _ => none

/-- The value of a number: no number at all, or the bits of a double. -/
inductive Number where
  | notANumber
  | word (bits : Nat)
deriving DecidableEq, Repr

def exponent? (text : List Char) : Option Int :=
  match text with
  | '-' :: digits => (positional? 10 digits).map fun value => -(value : Int)
  | '+' :: digits => (positional? 10 digits).map Int.ofNat
  | digits => (positional? 10 digits).map Int.ofNat

/-- What may follow the digits of a number: nothing, or a mark and an exponent. -/
def scale? : List Char → Option Int
  | [] => some 0
  | mark :: rest => if mark = 'e' || mark = 'E' then exponent? rest else none

/-- The word of a number without sign: digits with or without a point, then an exponent. -/
def magnitude? (text : List Char) : Option Nat :=
  let whole := text.takeWhile isDigit
  let rest := text.dropWhile isDigit
  let (fraction, rest) :=
    match rest with
    | '.' :: tail => (tail.takeWhile isDigit, tail.dropWhile isDigit)
    | rest => ([], rest)
  (positional? 10 (whole ++ fraction)).bind fun significand =>
    (scale? rest).map fun exponent =>
      Binary64.nearest significand (exponent - fraction.length)

/-- The value of a number without sign, by digits or by name. -/
def unsignedNumber? (text : List Char) : Option Number :=
  let name := text.map Char.toLower
  if name = "nan".toList then some .notANumber
  else if name = "inf".toList || name = "infinity".toList then some (.word Binary64.infinity)
  else (magnitude? text).map .word

def Number.negate : Number → Number
  | .notANumber => .notANumber
  | .word bits => .word (Binary64.signUnit + bits)

def number? (text : String) : Option Number :=
  match withoutSeparators text with
  | '-' :: rest => (unsignedNumber? rest).map Number.negate
  | '+' :: rest => unsignedNumber? rest
  | rest => unsignedNumber? rest

end Offside.Literal
