import Offside.Text.Alphabet
import Offside.Token.Kind

/-!
# Comments

Block comments nest.  A line comment starts with a run of two or more dashes
and reaches to the end of its line; it documents what follows when a space
and a bar come right after the dashes.
-/

namespace Offside.Token

/--
The length of the rest of a block comment, its last closing mark included,
when `depth` comments are open inside the outermost one.
-/
def commentLength? : (depth : Nat) → List Char → Option Nat
  | depth, '\x7b' :: '-' :: rest => (commentLength? (depth + 1) rest).map (2 + ·)
  | 0, '-' :: '\x7d' :: _ => some 2
  | depth + 1, '-' :: '\x7d' :: rest => (commentLength? depth rest).map (2 + ·)
  | depth, _ :: rest => (commentLength? depth rest).map (1 + ·)
  | _, [] => none

/-- The kind of a block comment and its length after the opening mark. -/
def blockComment (rest : List Char) : TokenKind × Nat :=
  match commentLength? 0 rest with
  | some length => (.blockComment, length)
  | none => (.error .unterminatedComment, rest.length)

/-- The kind of a line comment and its length after the dashes. -/
def lineComment (rest : List Char) : TokenKind × Nat :=
  let kind := if [' ', '|'].isPrefixOf rest then TokenKind.docComment else .lineComment
  (kind, (rest.takeWhile (· ≠ '\n')).length)

end Offside.Token
