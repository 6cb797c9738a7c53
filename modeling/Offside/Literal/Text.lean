import Offside.Literal.Digits

/-!
# Values of strings and characters

Between its quotes a string spells itself, except for escapes: a backslash
with a short name, a backslash with a code point in hexadecimal, and a gap of
blanks between two backslashes, which spells nothing.  A raw string has no
escapes.
-/

namespace Offside.Literal

open Offside.Text

/-- The character that an escape of one character spells. -/
def shortEscape? (char : Char) : Option Char :=
  match char with
  | 'n' => some '\n'
  | 't' => some '\t'
  | 'r' => some '\r'
  | '\\' => some '\\'
  | '"' => some '"'
  | '\'' => some '\''
  | '0' => some '\x00'
  | _ => none

/-- The character with a code point, unless the code point is a surrogate or too large. -/
def ofCodePoint? (code : Nat) : Option Char :=
  if code.isValidChar then some (Char.ofNat code) else none

def replacement : Char :=
  '�'

/-- The bound of the code points that can be written at all. -/
def codeBound : Nat :=
  Nat.pow 2 32

def isGap (char : Char) : Bool :=
  char = ' ' || char = '\t' || char = '\r' || char = '\n'

/--
What an escape spells, and how many characters after the backslash it takes.
-/
def escape? : List Char → Option (List Char × Nat)
  | [] => none
  | first :: rest =>
    match shortEscape? first with
    | some char => some ([char], 1)
    | none =>
      if first = 'x' || first = 'u' then
        let digits := rest.takeWhile isHexDigit
        (unsigned? 16 codeBound digits).map fun code =>
          ([(ofCodePoint? code).getD replacement], 1 + digits.length)
      else if isGap first then
        match rest.dropWhile isGap with
        | '\\' :: _ => some ([], (rest.takeWhile isGap).length + 2)
        | _ => none
      else none

/-- What the inside of a string spells; `skip` characters belong to an escape. -/
def decode? : (skip : Nat) → List Char → Option (List Char)
  | _, [] => some []
  | skip + 1, _ :: rest => decode? skip rest
  | 0, char :: rest =>
    if char = '\\' then
      (escape? rest).bind fun (spelled, length) =>
        (decode? length rest).map (spelled ++ ·)
    else (decode? 0 rest).map (char :: ·)

/-- The text without one leading and one trailing mark, when it has both. -/
def unwrap? (mark : Char) (text : List Char) : Option (List Char) :=
  match text with
  | [] => none
  | first :: rest =>
    if first = mark && rest.getLast? = some mark then some rest.dropLast else none

/-- Three quotes stand at both ends, and not the same ones. -/
def isRaw (text : List Char) : Bool :=
  6 ≤ text.length && ['"', '"', '"'].isPrefixOf text && ['"', '"', '"'].isSuffixOf text

def string? (text : String) : Option String :=
  let chars := text.toList
  if isRaw chars then some (String.ofList ((chars.drop 3).take (chars.length - 6)))
  else ((unwrap? '"' chars).bind (decode? 0)).map String.ofList

/-- The character that the inside of a character literal spells. -/
def charValue? : List Char → Option Char
  | [] => none
  | [char] => if char = '\\' then none else some char
  | first :: name :: rest =>
    if first ≠ '\\' then none
    else if name = 'x' || name = 'u' then (unsigned? 16 codeBound rest).bind ofCodePoint?
    else if rest.isEmpty then shortEscape? name
    else none

def char? (text : String) : Option Char :=
  (unwrap? '\'' text.toList).bind charValue?

end Offside.Literal
