/-!
# Fixities

A fixity says how tightly an operator binds and to which side it associates.
Operators on values and operators on types live in separate namespaces.
-/

namespace Offside

/-- The side to which a chain of equal operators associates, if any. -/
inductive Associativity where
  | left
  | right
  | none
deriving DecidableEq, Repr, Inhabited

def Associativity.spelling : Associativity → String
  | .left => "infixl"
  | .right => "infixr"
  | .none => "infix"

/-- How an operator associates and how tightly it binds; larger precedences bind tighter. -/
structure Fixity where
  associativity : Associativity
  precedence : Nat
deriving DecidableEq, Repr, Inhabited

namespace Fixity

def maxPrecedence : Nat :=
  255

def default : Fixity :=
  ⟨.left, 9⟩

def display (fixity : Fixity) : String :=
  fixity.associativity.spelling ++ " " ++ toString fixity.precedence

end Fixity

/-- What an operator works on. -/
inductive Namespace where
  | value
  | type
deriving DecidableEq, Repr, Inhabited

end Offside
