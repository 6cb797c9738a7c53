import Offside.Token.Basic
import Offside.Token.Number
import Offside.Token.Quotation
import Offside.Token.Word

/-!
# From text to tokens

The first character of a token decides which form it has, and the form
decides how far it reaches.  No character is skipped: blanks, comments and
faulty text are tokens too, so the spans of the tokens tile the text.
-/

namespace Offside.Token

open Offside.Text

/-- The kinds of the tokens that are always one character long. -/
def punctuation? (char : Char) : Option TokenKind :=
  match char with
  | '\n' => some .newline
  | '(' => some .openParen
  | ')' => some .closeParen
  | '\x7b' => some .openBrace
  | '\x7d' => some .closeBrace
  | '[' => some .openSquare
  | ']' => some .closeSquare
  | ',' => some .comma
  | ';' => some .semicolon
  | '\x60' => some .backtick
  | _ => none

/--
The token that starts with `first` and goes on in `rest`: its kind and how
many characters of `rest` it takes.
-/
def munch (first : Char) (rest : List Char) : TokenKind × Nat :=
  if isBlank first then (.whitespace, runLength isBlank rest)
  else if first = '\x7b' && rest.head? = some '-' then
    let (kind, length) := blockComment rest.tail
    (kind, length + 1)
  else
    match punctuation? first with
    | some kind => (kind, 0)
    | none =>
      if first = '"' then quotation rest
      else if first = '\'' then character rest
      else if isDigit first then
        let (kind, length) := numeral (first :: rest)
        (kind, length - 1)
      else if first = '_' then
        let length := runLength isNameChar rest
        (if length = 0 then .underscore else .lowerName, length)
      else if isSmall first then
        let word := rest.takeWhile isNameChar
        (wordKind (first :: word) (rest.drop word.length), word.length)
      else if isCapital first then properName 0 false rest
      else if first = '?' && rest.head?.any isAsciiLetter then
        (.hole, runLength isHoleChar rest)
      else if isSign first then
        let (kind, length) := signs (first :: rest)
        (kind, length - 1)
      else (.error .unexpectedCharacter, 0)

/--
The tokens of a text that starts at a byte offset.  The first `skip`
characters belong to a token that has been read already.
-/
def scanFrom (offset : Nat) : (skip : Nat) → List Char → List Token
  | _, [] => [virtual .eof offset]
  | skip + 1, _ :: rest => scanFrom offset skip rest
  | 0, first :: rest =>
    let (kind, length) := munch first rest
    let text := first :: rest.take length
    let stop := offset + byteLength text
    ⟨kind, ⟨offset, stop⟩, String.ofList text⟩ :: scanFrom stop length rest

def scan (source : String) : List Token :=
  scanFrom 0 0 source.toList

end Offside.Token
