import Offside.Token.Fault
import Offside.Token.Keyword

/-!
# Kinds of tokens

The set is closed: blanks and comments, keywords, names, literals, reserved
symbols, punctuation, the virtual tokens that layout inserts, faults, and the
end of the text.
-/

namespace Offside

/-- The three pairs of brackets. -/
inductive Bracket where
  | paren
  | brace
  | square
deriving DecidableEq, Repr, Inhabited

/-- What a token is. -/
inductive TokenKind where
  | whitespace
  | newline
  | lineComment
  | docComment
  | blockComment
  | keyword (word : Keyword)
  | lowerName
  | upperName
  | qualifiedLower
  | qualifiedUpper
  | qualifiedOperator
  | qualifiedDo
  | qualifiedAdo
  | operator
  | hole
  | integer
  | number
  | string
  | rawString
  | char
  | arrow
  | fatArrow
  | doubleColon
  | leftArrow
  | equals
  | pipe
  | backslash
  | dot
  | doubleDot
  | atSign
  | colon
  | opening (bracket : Bracket)
  | closing (bracket : Bracket)
  | comma
  | semicolon
  | backtick
  | underscore
  | layoutStart
  | layoutSep
  | layoutEnd
  | layoutError (fault : LayoutFault)
  | error (fault : LexFault)
  | eof
deriving DecidableEq, Repr, Inhabited

namespace TokenKind

/-- The bracket `(`. -/
@[match_pattern]
abbrev openParen : TokenKind :=
  opening .paren

/-- The bracket `)`. -/
@[match_pattern]
abbrev closeParen : TokenKind :=
  closing .paren

@[match_pattern]
abbrev openBrace : TokenKind :=
  opening .brace

@[match_pattern]
abbrev closeBrace : TokenKind :=
  closing .brace

/-- The bracket `[`. -/
@[match_pattern]
abbrev openSquare : TokenKind :=
  opening .square

/-- The bracket `]`. -/
@[match_pattern]
abbrev closeSquare : TokenKind :=
  closing .square

/-- Every kind of token, in the order in which diagnostics list them. -/
def all : List TokenKind :=
  [whitespace, newline, lineComment, docComment, blockComment] ++
    Keyword.all.map keyword ++
    [lowerName, upperName, qualifiedLower, qualifiedUpper, qualifiedOperator, qualifiedDo,
      qualifiedAdo, operator, hole, integer, number, string, rawString, char, arrow, fatArrow,
      doubleColon, leftArrow, equals, pipe, backslash, dot, doubleDot, atSign, colon, openParen,
      closeParen, openBrace, closeBrace, openSquare, closeSquare, comma, semicolon, backtick,
      underscore, layoutStart, layoutSep, layoutEnd] ++
    LayoutFault.all.map layoutError ++ LexFault.all.map error ++ [eof]

def rank : TokenKind → Nat
  | whitespace => 0
  | newline => 1
  | lineComment => 2
  | docComment => 3
  | blockComment => 4
  | keyword word => 5 + word.rank
  | lowerName => 30
  | upperName => 31
  | qualifiedLower => 32
  | qualifiedUpper => 33
  | qualifiedOperator => 34
  | qualifiedDo => 35
  | qualifiedAdo => 36
  | operator => 37
  | hole => 38
  | integer => 39
  | number => 40
  | string => 41
  | rawString => 42
  | char => 43
  | arrow => 44
  | fatArrow => 45
  | doubleColon => 46
  | leftArrow => 47
  | equals => 48
  | pipe => 49
  | backslash => 50
  | dot => 51
  | doubleDot => 52
  | atSign => 53
  | colon => 54
  | opening .paren => 55
  | closing .paren => 56
  | opening .brace => 57
  | closing .brace => 58
  | opening .square => 59
  | closing .square => 60
  | comma => 61
  | semicolon => 62
  | backtick => 63
  | underscore => 64
  | layoutStart => 65
  | layoutSep => 66
  | layoutEnd => 67
  | layoutError fault => 68 + fault.ctorIdx
  | error fault => 71 + fault.ctorIdx
  | eof => 76

def name : TokenKind → String
  | whitespace => "Whitespace"
  | newline => "Newline"
  | lineComment => "LineComment"
  | docComment => "DocComment"
  | blockComment => "BlockComment"
  | keyword word => word.spelling.capitalize
  | lowerName => "LowerIdent"
  | upperName => "UpperIdent"
  | qualifiedLower => "QualifiedLower"
  | qualifiedUpper => "QualifiedUpper"
  | qualifiedOperator => "QualifiedOperator"
  | qualifiedDo => "QualifiedDo"
  | qualifiedAdo => "QualifiedAdo"
  | operator => "Operator"
  | hole => "Hole"
  | integer => "Integer"
  | number => "Number"
  | string => "String"
  | rawString => "RawString"
  | char => "Char"
  | arrow => "Arrow"
  | fatArrow => "FatArrow"
  | doubleColon => "DoubleColon"
  | leftArrow => "LeftArrow"
  | equals => "Equals"
  | pipe => "Pipe"
  | backslash => "Backslash"
  | dot => "Dot"
  | doubleDot => "DoubleDot"
  | atSign => "At"
  | colon => "Colon"
  | opening .paren => "LParen"
  | closing .paren => "RParen"
  | opening .brace => "LBrace"
  | closing .brace => "RBrace"
  | opening .square => "LBracket"
  | closing .square => "RBracket"
  | comma => "Comma"
  | semicolon => "Semicolon"
  | backtick => "Backtick"
  | underscore => "Underscore"
  | layoutStart => "LayoutStart"
  | layoutSep => "LayoutSep"
  | layoutEnd => "LayoutEnd"
  | layoutError fault => "LayoutError(" ++ fault.name ++ ")"
  | error fault => "Error(" ++ fault.name ++ ")"
  | eof => "Eof"

def ofName? (name : String) : Option TokenKind :=
  all.find? fun kind => kind.name = name

def description : TokenKind → String
  | whitespace => "whitespace"
  | newline => "newline"
  | lineComment => "line comment"
  | docComment => "doc comment"
  | blockComment => "block comment"
  | keyword word => "`" ++ word.spelling ++ "`"
  | lowerName => "identifier"
  | upperName => "proper name"
  | qualifiedLower => "qualified identifier"
  | qualifiedUpper => "qualified proper name"
  | qualifiedOperator => "qualified operator"
  | qualifiedDo => "qualified `do`"
  | qualifiedAdo => "qualified `ado`"
  | operator => "operator"
  | hole => "hole"
  | integer => "integer literal"
  | number => "number literal"
  | string => "string literal"
  | rawString => "raw string literal"
  | char => "character literal"
  | arrow => "`->`"
  | fatArrow => "`=>`"
  | doubleColon => "`::`"
  | leftArrow => "`<-`"
  | equals => "`=`"
  | pipe => "`|`"
  | backslash => "`\\`"
  | dot => "`.`"
  | doubleDot => "`..`"
  | atSign => "`@`"
  | colon => "`:`"
  | opening .paren => "`(`"
  | closing .paren => "`)`"
  | opening .brace => "`\x7b`"
  | closing .brace => "`\x7d`"
  | opening .square => "`[`"
  | closing .square => "`]`"
  | comma => "`,`"
  | semicolon => "`;`"
  | backtick => "`` ` ``"
  | underscore => "`_`"
  | layoutStart => "start of block"
  | layoutSep => "new line in block"
  | layoutEnd => "end of block"
  | layoutError _ => "misplaced indentation"
  | error _ => "invalid token"
  | eof => "end of file"

def isTrivia : TokenKind → Bool
  | whitespace | newline | lineComment | docComment | blockComment => true
  | _ => false

/-- Trivia, or a comment that never closed: neither layout nor grammar looks at these. -/
def isInsignificant (kind : TokenKind) : Bool :=
  kind.isTrivia || kind = error .unterminatedComment

def isComment : TokenKind → Bool
  | lineComment | docComment | blockComment => true
  | _ => false

/-- Kinds of tokens without text: those that layout inserts, and the end of the text. -/
def isVirtual : TokenKind → Bool
  | layoutStart | layoutSep | layoutEnd | layoutError _ | eof => true
  | _ => false

def isSignificant (kind : TokenKind) : Bool :=
  !kind.isInsignificant && !kind.isVirtual

def isLayoutError : TokenKind → Bool
  | layoutError _ => true
  | _ => false

def isVisible (kind : TokenKind) : Bool :=
  !kind.isInsignificant && !kind.isLayoutError

def isLayoutKeyword : TokenKind → Bool
  | keyword .whereWord | keyword .letWord | keyword .doWord | keyword .adoWord
  | keyword .ofWord | qualifiedDo | qualifiedAdo => true
  | _ => false

def isKeyword : TokenKind → Bool
  | keyword _ => true
  | _ => false

/-- Keywords that can only begin a top-level declaration. -/
def startsTopLevel : TokenKind → Bool
  | keyword .importWord | keyword .foreignWord | keyword .dataWord | keyword .typeWord
  | keyword .newtypeWord | keyword .classWord | keyword .instanceWord | keyword .deriveWord
  | keyword .infixWord | keyword .infixlWord | keyword .infixrWord => true
  | _ => false

def isName : TokenKind → Bool
  | lowerName | upperName | qualifiedLower | qualifiedUpper => true
  | _ => false

def isString : TokenKind → Bool
  | string | rawString => true
  | _ => false

def isLiteral : TokenKind → Bool
  | integer | number | string | rawString | char | keyword .trueWord | keyword .falseWord => true
  | _ => false

def isError : TokenKind → Bool
  | error _ => true
  | _ => false

def isOpening : TokenKind → Bool
  | opening _ => true
  | _ => false

def isClosing : TokenKind → Bool
  | closing _ => true
  | _ => false

/-- What can label a field of a record: an identifier, a keyword or a string. -/
def isLabel : TokenKind → Bool
  | lowerName | string | rawString | keyword _ => true
  | _ => false

def sorted (kinds : List TokenKind) : List TokenKind :=
  kinds.mergeSort fun left right => left.rank ≤ right.rank

/-- Insert a kind into an ascending list without repetition. -/
def insertSorted (kind : TokenKind) : List TokenKind → List TokenKind
  | [] => [kind]
  | first :: rest =>
    if kind.rank < first.rank then kind :: first :: rest
    else if kind.rank = first.rank then first :: rest
    else first :: insertSorted kind rest

def distinct (kinds : List TokenKind) : List TokenKind :=
  kinds.foldr insertSorted []

end TokenKind

end Offside
