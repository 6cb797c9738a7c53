import Offside.Fixity.Table
import Offside.Literal.Number
import Offside.Token.Basic

/-!
# Declared fixities

The fixity declarations of a text can be found without parsing it: each is a
fixed row of tokens.  Rows that break off are skipped; the grammar reports
them.
-/

namespace Offside

/-- A fixity declaration and the offset of its keyword. -/
structure DeclaredFixity where
  space : Namespace
  operator : String
  fixity : Fixity
  offset : Nat
deriving DecidableEq, Repr

namespace DeclaredFixity

def associativity? : TokenKind → Option Associativity
  | .keyword .infixlWord => some .left
  | .keyword .infixrWord => some .right
  | .keyword .infixWord => some .none
  | _ => none

def isOperator : TokenKind → Bool
  | .operator | .colon => true
  | _ => false

def isAs (token : Token) : Bool :=
  token.kind = .lowerName && token.text = "as"

/-- The operator at the end of a declaration: its target, the word `as`, and itself. -/
def operator? : List Token → Option String
  | target :: word :: operator :: _ =>
    if target.kind.isName && isAs word && isOperator operator.kind then some operator.text
    else none
  | _ => none

def match? (associativity : Associativity) (offset : Nat) :
    List Token → Option DeclaredFixity
  | digits :: rest =>
    if digits.kind = .integer then
      (Literal.byte? digits.text).bind fun precedence =>
        let (space, rest) :=
          match rest with
          | first :: tail =>
            if first.kind = .keyword .typeWord then (Namespace.type, tail) else (.value, rest)
          | [] => (.value, rest)
        (operator? rest).map fun operator =>
          ⟨space, operator, ⟨associativity, precedence⟩, offset⟩
    else none
  | [] => none

/-- The declarations in a list of tokens that holds only significant ones with text. -/
def collect : List Token → List DeclaredFixity
  | [] => []
  | token :: rest =>
    let found :=
      (associativity? token.kind).bind fun associativity =>
        match? associativity token.span.start rest
    found.toList ++ collect rest

/-- The fixity declarations among the tokens of a text, in order. -/
def scan (tokens : List Token) : List DeclaredFixity :=
  collect (tokens.filter fun token => token.kind.isSignificant)

def firsts : List DeclaredFixity → List DeclaredFixity
  | [] => []
  | declared :: rest =>
    declared :: (firsts rest).filter fun other =>
      (other.space, other.operator) ≠ (declared.space, declared.operator)

end DeclaredFixity

/-- Store the declared fixities; of several declarations of one operator the first counts. -/
def OperatorTable.declare (table : OperatorTable) (declared : List DeclaredFixity) :
    OperatorTable :=
  (DeclaredFixity.firsts declared).foldl
    (fun table found => table.insert found.space found.operator found.fixity) table

end Offside
