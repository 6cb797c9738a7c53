/-!
# What can go wrong below the grammar

Two kinds of faults are found before any grammar is consulted: text that is
no well-formed token, and lines whose indentation fits no open block.
-/

namespace Offside

/-- Why a piece of text is no well-formed token. -/
inductive LexFault where
  | unexpectedCharacter
  | unterminatedString
  | unterminatedRawString
  | unterminatedComment
  | invalidEscape
deriving DecidableEq, Repr, Inhabited

namespace LexFault

def all : List LexFault :=
  [unexpectedCharacter, unterminatedString, unterminatedRawString, unterminatedComment,
    invalidEscape]

def name : LexFault → String
  | unexpectedCharacter => "UnexpectedCharacter"
  | unterminatedString => "UnterminatedString"
  | unterminatedRawString => "UnterminatedRawString"
  | unterminatedComment => "UnterminatedComment"
  | invalidEscape => "InvalidEscape"

def message : LexFault → String
  | unexpectedCharacter => "unexpected character"
  | unterminatedString => "unterminated string literal"
  | unterminatedRawString => "unterminated raw string literal"
  | unterminatedComment => "unterminated block comment"
  | invalidEscape => "invalid escape sequence in literal"

def isUnterminated : LexFault → Bool
  | unterminatedString | unterminatedRawString | unterminatedComment => true
  | unexpectedCharacter | invalidEscape => false

end LexFault

/-- Why the indentation of a line is at fault. -/
inductive LayoutFault where
  /-- The line lands between the columns of two enclosing blocks. -/
  | misaligned
  /-- A bracket is still open where the line leaves its enclosing block. -/
  | unclosedDelimiter
  /-- The line starts left of the first token of the text. -/
  | leftOfRoot
deriving DecidableEq, Repr, Inhabited

namespace LayoutFault

def all : List LayoutFault :=
  [misaligned, unclosedDelimiter, leftOfRoot]

def name : LayoutFault → String
  | misaligned => "Misaligned"
  | unclosedDelimiter => "UnclosedDelimiter"
  | leftOfRoot => "LeftOfRoot"

def message : LayoutFault → String
  | misaligned => "line is not aligned with any enclosing block"
  | unclosedDelimiter => "unclosed delimiter before dedent"
  | leftOfRoot => "line starts left of the module's first column"

end LayoutFault

end Offside
