import Offside.View.Item

/-!
# Class constraints

A class with the types that it constrains, be it in front of an arrow or in
the head of an instance.
-/

namespace Offside.View

/-- A class applied to types. -/
structure Constraint where
  className : Option String
  arguments : List Tree
  node : Tree
deriving Repr

namespace Constraint

def isClassName : TokenKind → Bool
  | .upperName | .qualifiedUpper => true
  | _ => false

/--
The constraint that a node stands for.  In parentheses a constraint is not
told from a type, so constructors and their applications count as well.
-/
def ofTree? (tree : Tree) : Option Constraint :=
  match tree.kind? with
  | some .constraint =>
    some { className := firstText? isClassName tree, arguments := tree.childNodes, node := tree }
  | some .typeConstructor =>
    some { className := firstText? isClassName tree, arguments := [], node := tree }
  | some .typeApp =>
    match tree.childNodes with
    | head :: arguments =>
      if head.isOfKind .typeConstructor then
        some { className := some head.text, arguments, node := tree }
      else none
    | [] => none
  | _ => none

/-- The constraints in a tree, each in front of those below it. -/
def within (root : Tree) : List Constraint :=
  root.descendants.filterMap ofTree?

end Constraint

end Offside.View
