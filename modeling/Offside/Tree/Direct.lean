import Offside.Tree.Build

/-!
# A tree straight from a trail

The meaning of a trail without the detour through events: every mark acts on
a stack of open nodes whose kinds are not known yet.  Opening a node around a
finished child moves that child, and all children after it, into the new
node.
-/

namespace Offside.Tree.Direct

/-- An open node of unknown kind. -/
structure Frame where
  /-- The offset where the node was opened. -/
  openedAt : Nat
  /-- The children so far, last first. -/
  children : List Tree

/-- What is open, innermost first, the finished root, and what is left of the tokens. -/
structure State where
  stack : List Frame := []
  root : Option Tree := none
  tokens : List Token
  /-- The end of the last token taken. -/
  offset : Nat := 0

namespace State

/-- Add a finished tree to the innermost open node; without one a node becomes the root. -/
def adopt (state : State) (child : Tree) : State :=
  match state.stack with
  | [] => if child.isNode then { state with root := some child } else state
  | parent :: rest =>
    { state with stack := { parent with children := child :: parent.children } :: rest }

def step (state : State) : Mark → State
  | .start => { state with stack := ⟨state.offset, []⟩ :: state.stack }
  | .token =>
    match state.tokens with
    | [] => state
    | token :: rest =>
      { state with tokens := rest, offset := token.span.stop }.adopt (leaf token)
  | .finish kind error =>
    match state.stack with
    | [] => state
    | frame :: rest =>
      { state with stack := rest }.adopt
        (ofChildren kind error frame.openedAt frame.children.reverse)
  | .abandon =>
    match state.stack with
    | frame :: parent :: rest =>
      { state with
        stack := { parent with children := frame.children ++ parent.children } :: rest }
    | _ => { state with stack := [] }
  | .precede after =>
    match state.stack with
    | [] => state
    | frame :: rest =>
      { state with
        stack :=
          ⟨state.offset, frame.children.take (after + 1)⟩ ::
            { frame with children := frame.children.drop (after + 1) } :: rest }

end State

def run (tokens : List Token) (trail : List Mark) : State :=
  trail.foldl State.step { tokens }

/-- The tree of a trail that opens one node first and closes it last. -/
def tree (tokens : List Token) (trail : List Mark) : Tree :=
  let done := run tokens trail
  appendLeaves done.tokens (done.root.getD (node .wholeModule (Span.empty 0) none []))

end Offside.Tree.Direct
