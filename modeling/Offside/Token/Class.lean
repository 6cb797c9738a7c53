import Offside.Token.Kind

/-!
# Classes of tokens

The coarse classes by which an editor colours tokens, matches brackets and
skips blanks.
-/

namespace Offside

/-- What an editor makes of a token. -/
inductive TokenClass where
  | whitespace
  | comment
  | stringLiteral
  | keyword
  | identifier
  | operator
  | literal
  | punctuation
  /-- What layout inserts. -/
  | layout
  | error
  | eof
deriving DecidableEq, Repr

namespace TokenClass

def name : TokenClass → String
  | whitespace => "Whitespace"
  | comment => "Comment"
  | stringLiteral => "StringLiteral"
  | keyword => "Keyword"
  | identifier => "Identifier"
  | operator => "Operator"
  | literal => "Literal"
  | punctuation => "Punctuation"
  | layout => "Layout"
  | error => "Error"
  | eof => "Eof"

def ofKind : TokenKind → TokenClass
  | .whitespace | .newline => whitespace
  | .lineComment | .docComment | .blockComment => comment
  | .string | .rawString => stringLiteral
  | .integer | .number | .char => literal
  | .keyword _ | .qualifiedDo | .qualifiedAdo => keyword
  | .lowerName | .upperName | .qualifiedLower | .qualifiedUpper | .hole => identifier
  | .operator | .qualifiedOperator | .arrow | .fatArrow | .doubleColon | .leftArrow | .equals
  | .pipe | .backslash | .dot | .doubleDot | .atSign | .colon => operator
  | .opening _ | .closing _ | .comma | .semicolon | .backtick | .underscore => punctuation
  | .layoutStart | .layoutSep | .layoutEnd | .layoutError _ => layout
  | .error _ => error
  | .eof => eof

def whitespaceKinds : List TokenKind :=
  [.whitespace, .newline]

def commentKinds : List TokenKind :=
  [.lineComment, .docComment, .blockComment]

def stringKinds : List TokenKind :=
  [.string, .rawString]

end TokenClass

end Offside
