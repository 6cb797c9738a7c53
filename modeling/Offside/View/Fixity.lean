import Offside.Fixity.Declared
import Offside.View.Item

/-!
# Fixity declarations

What the nodes of fixity declarations say.
-/

namespace Offside.View

/-- A fixity declaration. -/
structure FixityDecl where
  associativity : Option Associativity
  /-- The precedence, if it is written and not too large. -/
  precedence : Option Nat
  /-- What the operator stands for. -/
  target : Option String
  operator : Option String
  /-- The operator works on types. -/
  isType : Bool
  span : Span
deriving DecidableEq, Repr

namespace FixityDecl

/-- The name that the operator of a declaration stands for. -/
def target? (tree : Tree) : Option String :=
  (firstText? TokenKind.isName tree).filter fun name => name ≠ "as"

def ofTree? (tree : Tree) : Option FixityDecl :=
  if tree.isOfKind .fixityDecl then
    some
      { associativity :=
          tree.childTokens.findSome? fun token => DeclaredFixity.associativity? token.kind
        precedence := (tree.childToken? .integer).bind fun token => Literal.byte? token.text
        target := target? tree
        operator := firstText? isOperator tree
        isType := (tree.childToken? (.keyword .typeWord)).isSome
        span := tree.span }
  else none

/-- The fixity declarations in a tree, each in front of those below it. -/
def within (root : Tree) : List FixityDecl :=
  root.descendants.filterMap ofTree?

end FixityDecl

end Offside.View
