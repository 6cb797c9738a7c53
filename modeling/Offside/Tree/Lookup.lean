import Offside.Tree.Walk

/-!
# Looking up an offset

The innermost node and the token that a byte offset falls into.
-/

namespace Offside.Tree

mutual

/-- The innermost node whose span holds the offset, or the tree itself. -/
def covering (offset : Nat) : Tree → Tree
  | leaf token => leaf token
  | node kind span error children =>
    (coveringAmong offset children).getD (node kind span error children)

/-- The innermost node that holds the offset, in the first of the trees that does. -/
def coveringAmong (offset : Nat) : List Tree → Option Tree
  | [] => none
  | tree :: rest =>
    if tree.isNode && tree.span.covers offset then some (covering offset tree)
    else coveringAmong offset rest

end

def tokenAt? (offset : Nat) (tree : Tree) : Option Token :=
  (tree.covering offset).tokens.find? fun token => token.span.covers offset

end Offside.Tree
