import Offside.Tree.Basic

/-!
# Walks over a tree

A long chain of operators makes a tree as deep as the chain is long, so the
walks over a tree keep what is still to be visited on a stack of their own
and gather what they find as they go.
-/

namespace Offside.Tree

def gatherNodes (found : Array Tree) : (stack : List Tree) → Array Tree
  | [] => found
  | leaf _ :: stack => gatherNodes found stack
  | node kind span error children :: stack =>
    gatherNodes (found.push (node kind span error children)) (children ++ stack)
termination_by stack => forestWeight stack
decreasing_by
  · simp only [forestWeight, weight]; omega
  · simp only [forestWeight, weight, forestWeight_append]; omega

/-- The nodes of a tree, each in front of those below it, the tree itself first. -/
def descendants (tree : Tree) : List Tree :=
  (gatherNodes #[] [tree]).toList

def gatherTokens (found : Array Token) : (stack : List Tree) → Array Token
  | [] => found
  | leaf token :: stack => gatherTokens (found.push token) stack
  | node _ _ _ children :: stack => gatherTokens found (children ++ stack)
termination_by stack => forestWeight stack
decreasing_by
  · simp only [forestWeight, weight]; omega
  · simp only [forestWeight, weight, forestWeight_append]; omega

def tokens (tree : Tree) : List Token :=
  (gatherTokens #[] [tree]).toList

/-- The tokens of a tree that are neither trivia nor virtual. -/
def significantTokens (tree : Tree) : List Token :=
  tree.tokens.filter fun token => token.kind.isSignificant

def text (tree : Tree) : String :=
  Token.textOf tree.tokens

/-- The diagnostics in a tree, each in front of those below it. -/
def diagnostics (tree : Tree) : List Diagnostic :=
  tree.descendants.filterMap error?

/-- A node that is being copied: its parts, its finished children and those still to be copied. -/
structure CopyFrame where
  kind : NodeKind
  span : Span
  error : Option Diagnostic
  /-- The finished children, last first. -/
  copied : List Tree
  pending : List Tree

/--
The number of steps that a stack of frames still needs: one for each frame and
two for each node or leaf to be copied.
-/
def pendingWeight : List CopyFrame → Nat
  | [] => 0
  | frame :: stack => 1 + 2 * forestWeight frame.pending + pendingWeight stack

/-- Copy what is left of a frame and of the frames below it. -/
def copyFrom (frame : CopyFrame) (stack : List CopyFrame) : Tree :=
  match frame with
  | ⟨kind, span, error, copied, leaf token :: pending⟩ =>
    copyFrom ⟨kind, span, error, leaf token :: copied, pending⟩ stack
  | ⟨kind, span, error, copied, node childKind childSpan childError children :: pending⟩ =>
    copyFrom ⟨childKind, childSpan, childError, [], children⟩
      (⟨kind, span, error, copied, pending⟩ :: stack)
  | ⟨kind, span, error, copied, []⟩ =>
    let done := node kind span error copied.reverse
    match stack with
    | [] => done
    | parent :: stack => copyFrom { parent with copied := done :: parent.copied } stack
termination_by 1 + 2 * forestWeight frame.pending + pendingWeight stack
decreasing_by
  · simp only [forestWeight, weight]; omega
  · simp only [forestWeight, weight, pendingWeight]; omega
  · simp only [forestWeight, pendingWeight]; omega

def copy : Tree → Tree
  | leaf token => leaf token
  | node kind span error children => copyFrom ⟨kind, span, error, [], children⟩ []

end Offside.Tree
