import Offside.Text.Alphabet
import Offside.Token.Kind

/-!
# Strings and characters

A string runs to its closing quote, or stops in front of the end of its line
when there is none.  Three quotes open a raw string, which may span lines and
ends with the next run of at least three quotes.  A character literal holds
one character or one escape.
-/

namespace Offside.Token

open Offside.Text

/-- Blanks that may stand in the gap of a string, the end of line included. -/
def isGapChar (char : Char) : Bool :=
  char = ' ' || char = '\t' || char = '\r' || char = '\n'

/-- Characters that name an escape of a single character. -/
def isShortEscape (char : Char) : Bool :=
  char = 'n' || char = 't' || char = 'r' || char = '"' || char = '\'' || char = '\\' || char = '0'

/--
How many characters after a backslash belong to its escape, or `none` when
they form no escape.  A gap is a run of blanks between two backslashes.
-/
def escapeLength? : List Char → Option Nat
  | [] => some 0
  | first :: rest =>
    if isGapChar first then
      match rest.dropWhile isGapChar with
      | '\\' :: _ => some ((rest.takeWhile isGapChar).length + 2)
      | _ => none
    else if isShortEscape first then some 1
    else if first = 'x' || first = 'u' then
      let digits := (rest.takeWhile isHexDigit).length
      if digits = 0 then none else some (1 + digits)
    else none

/-- How the scan of a string ended. -/
inductive StringEnd where
  | closed
  | closedWithFault
  | unterminated
deriving DecidableEq, Repr

/--
Scan a string after its opening quote: how it ends, and how many characters
it takes.  `skip` characters at the front belong to an escape, and `faulty`
tells whether something that is no escape has been seen.
-/
def scanString : (skip : Nat) → (faulty : Bool) → List Char → StringEnd × Nat
  | _, _, [] => (.unterminated, 0)
  | skip + 1, faulty, _ :: rest =>
    let (ending, length) := scanString skip faulty rest
    (ending, length + 1)
  | 0, faulty, char :: rest =>
    if char = '"' then (if faulty then .closedWithFault else .closed, 1)
    else if char = '\n' then (.unterminated, 0)
    else if char = '\\' then
      let (ending, length) :=
        match escapeLength? rest with
        | some skip => scanString skip faulty rest
        | none => scanString 0 true rest
      (ending, length + 1)
    else
      let (ending, length) := scanString 0 faulty rest
      (ending, length + 1)

/--
The length of a raw string after its opening quotes: up to the first three
quotes in a row and all quotes that follow them.
-/
def rawLength? : List Char → Option Nat
  | '"' :: '"' :: '"' :: rest => some (3 + (rest.takeWhile (· = '"')).length)
  | _ :: rest => (rawLength? rest).map (1 + ·)
  | [] => none

/-- The kind of a string of either form and its length after the first quote. -/
def quotation : List Char → TokenKind × Nat
  | '"' :: '"' :: rest =>
    match rawLength? rest with
    | some length => (.rawString, 2 + length)
    | none => (.error .unterminatedRawString, 2 + rest.length)
  | rest =>
    match scanString 0 false rest with
    | (.closed, length) => (.string, length)
    | (.closedWithFault, length) => (.error .invalidEscape, length)
    | (.unterminated, length) => (.error .unterminatedString, length)

/--
The kind of a character literal and its length after the quote.  What is no
literal is an unexpected quote; a numbered escape that is not closed is one
faulty token together with its digits.
-/
def character : List Char → TokenKind × Nat
  | '\\' :: mark :: rest =>
    let digits := (rest.takeWhile isHexDigit).length
    if (mark = 'x' || mark = 'u') && 0 < digits then
      if (rest.drop digits).head? = some '\'' then (.char, 3 + digits)
      else (.error .unexpectedCharacter, 2 + digits)
    else if mark ≠ '\n' && rest.head? = some '\'' then (.char, 3)
    else (.error .unexpectedCharacter, 0)
  | char :: '\'' :: _ =>
    if char ≠ '\'' && char ≠ '\\' then (.char, 2) else (.error .unexpectedCharacter, 0)
  | _ => (.error .unexpectedCharacter, 0)

end Offside.Token
