/-!
# Keywords

The reserved words.  An identifier spelled like one of them is that keyword.
-/

namespace Offside

/-- The reserved words of the language. -/
inductive Keyword where
  | moduleWord
  | importWord
  | foreignWord
  | dataWord
  | typeWord
  | newtypeWord
  | classWord
  | instanceWord
  | deriveWord
  | whereWord
  | letWord
  | inWord
  | doWord
  | adoWord
  | caseWord
  | ofWord
  | ifWord
  | thenWord
  | elseWord
  | forallWord
  | infixWord
  | infixlWord
  | infixrWord
  | trueWord
  | falseWord
deriving DecidableEq, Repr, Inhabited

namespace Keyword

def all : List Keyword :=
  [moduleWord, importWord, foreignWord, dataWord, typeWord, newtypeWord, classWord, instanceWord,
    deriveWord, whereWord, letWord, inWord, doWord, adoWord, caseWord, ofWord, ifWord, thenWord,
    elseWord, forallWord, infixWord, infixlWord, infixrWord, trueWord, falseWord]

def spelling : Keyword → String
  | moduleWord => "module"
  | importWord => "import"
  | foreignWord => "foreign"
  | dataWord => "data"
  | typeWord => "type"
  | newtypeWord => "newtype"
  | classWord => "class"
  | instanceWord => "instance"
  | deriveWord => "derive"
  | whereWord => "where"
  | letWord => "let"
  | inWord => "in"
  | doWord => "do"
  | adoWord => "ado"
  | caseWord => "case"
  | ofWord => "of"
  | ifWord => "if"
  | thenWord => "then"
  | elseWord => "else"
  | forallWord => "forall"
  | infixWord => "infix"
  | infixlWord => "infixl"
  | infixrWord => "infixr"
  | trueWord => "true"
  | falseWord => "false"

def rank (keyword : Keyword) : Nat :=
  keyword.ctorIdx

def ofSpelling? (word : String) : Option Keyword :=
  all.find? fun keyword => keyword.spelling = word

end Keyword

end Offside
