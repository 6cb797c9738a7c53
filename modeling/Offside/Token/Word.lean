import Offside.Token.Comment

/-!
# Names and operators

Identifiers start with a small letter or an underscore, proper names with a
capital.  A word spelled like a keyword is one only where it is plainly over:
the first byte of what follows must not be a byte that starts a letter.
Proper names joined by dots qualify what follows the last dot: an identifier,
another proper name or an operator.  A dot that qualifies nothing still
belongs to the proper name in front of it.
-/

namespace Offside.Token

open Offside.Text

/--
The kind of a word that starts like an identifier and stands in front of `rest`.
In front of a character that leads like a letter it is an identifier, however
it is spelled.
-/
def wordKind (word rest : List Char) : TokenKind :=
  if rest.head?.any leadsLikeLetter then .lowerName
  else
    match Keyword.ofSpelling? (String.ofList word) with
    | some keyword => .keyword keyword
    | none => .lowerName

/-- The kind of a qualified identifier, told by its last part. -/
def qualifiedKind (word : List Char) : TokenKind :=
  if word = ['d', 'o'] then .qualifiedDo
  else if word = ['a', 'd', 'o'] then .qualifiedAdo
  else .qualifiedLower

/-- A proper name alone, or one that is qualified itself. -/
def properKind (qualified : Bool) : TokenKind :=
  if qualified then .qualifiedUpper else .upperName

/--
Continue a proper name: the kind of the whole token and how many characters
are left of it.  `skip` characters at the front are known to continue the
current name, and `qualified` tells whether a name and a dot came before it.
-/
def properName : (skip : Nat) → (qualified : Bool) → List Char → TokenKind × Nat
  | _, qualified, [] => (properKind qualified, 0)
  | skip + 1, qualified, _ :: rest =>
    let (kind, length) := properName skip qualified rest
    (kind, length + 1)
  | 0, qualified, char :: rest =>
    if isNameChar char then
      let (kind, length) := properName 0 qualified rest
      (kind, length + 1)
    else if char = '.' then
      match rest with
      | [] => (properKind qualified, 1)
      | first :: tail =>
        if isCapital first then
          let (kind, length) := properName 1 true rest
          (kind, length + 1)
        else if isSmall first || first = '_' then
          let word := tail.takeWhile isNameChar
          (qualifiedKind (first :: word), word.length + 2)
        else if isSign first then
          (.qualifiedOperator, (tail.takeWhile isSign).length + 2)
        else (properKind qualified, 1)
    else (properKind qualified, 0)

/-- The kind of a run of operator characters: a reserved symbol or an operator. -/
def signKind (signs : List Char) : TokenKind :=
  match signs with
  | ['-', '>'] | ['→'] => .arrow
  | ['=', '>'] | ['⇒'] => .fatArrow
  | [':', ':'] | ['∷'] => .doubleColon
  | ['<', '-'] | ['←'] => .leftArrow
  | ['='] => .equals
  | ['|'] => .pipe
  | ['\\'] => .backslash
  | ['.'] => .dot
  | ['.', '.'] => .doubleDot
  | ['@'] => .atSign
  | [':'] => .colon
  | ['∀'] => .keyword .forallWord
  | _ => .operator

/--
The kind and length of what a run of operator characters starts: a line
comment when the run is made of two or more dashes, and otherwise the run.
-/
def signs (text : List Char) : TokenKind × Nat :=
  let run := text.takeWhile isSign
  if 2 ≤ run.length && run.all (· = '-') then
    let (kind, length) := lineComment (text.drop run.length)
    (kind, run.length + length)
  else (signKind run, run.length)

end Offside.Token
