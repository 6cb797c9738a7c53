import Offside.Proofs.Drawing

/-!
# Sketches of trees

A sketch is what is left of a tree when trivia and everything about places is
forgotten: the kinds of its nodes, the causes of their diagnostics, and the
kinds and texts of its tokens.  Error nodes without children can be forgotten
as well.  The marks of a trail act on the sketches of the finished trees, and
what they do is told by the sketches alone.  The one exception is a node opened
around a finished tree, which has to be known to have a sketch.
-/

namespace Offside

/-- A tree without trivia and without places. -/
inductive Sketch where
  | leaf (kind : TokenKind) (text : String)
  | node (kind : NodeKind) (cause : Option Cause) (children : List Sketch)

namespace Sketch

/-- The sketch of a token, unless it is trivia or a comment that never closed. -/
def ofToken? (token : Token) : Option Sketch :=
  if token.kind.isInsignificant then none else some (leaf token.kind token.text)

/-- The sketch of a node; an error node without children has one only if these are kept. -/
def ofNode? (keepsEmpty : Bool) (kind : NodeKind) (cause : Option Cause)
    (children : List Sketch) : Option Sketch :=
  if !keepsEmpty && kind = .error && children.isEmpty then none
  else some (node kind cause children)

/-- The sketches in the open nodes: innermost node first, in each node the last one first. -/
abbrev Rows := List (List Sketch)

namespace Rows

def adopt (child : Option Sketch) : Rows → Rows
  | [] => []
  | row :: below => (child.toList ++ row) :: below

@[simp]
theorem adopt_none (rows : Rows) : adopt none rows = rows := by
  cases rows <;> rfl

def close (keepsEmpty : Bool) (kind : NodeKind) (cause : Option Cause) : Rows → Rows
  | [] => []
  | row :: below => adopt (ofNode? keepsEmpty kind cause row.reverse) below

/-- The sketch that closing the innermost open node leaves last in the node around it. -/
def closed? (keepsEmpty : Bool) (kind : NodeKind) (cause : Option Cause) :
    Rows → Option Sketch
  | row :: _ :: _ => ofNode? keepsEmpty kind cause row.reverse
  | _ => none

def giveUp : Rows → Rows
  | row :: parent :: below => (row ++ parent) :: below
  | _ => []

/-- Open a node around the last child, which has a sketch or not. -/
def enclose (hasSketch : Bool) : Rows → Rows
  | [] => []
  | row :: below =>
    if hasSketch then row.take 1 :: row.drop 1 :: below else [] :: row :: below

end Rows

end Sketch

namespace Tree

mutual

def sketch? (keepsEmpty : Bool) : Tree → Option Sketch
  | leaf token => Sketch.ofToken? token
  | node kind _ error children =>
    Sketch.ofNode? keepsEmpty kind (error.map Diagnostic.cause)
      (sketchRow keepsEmpty children)

def sketchRow (keepsEmpty : Bool) : List Tree → List Sketch
  | [] => []
  | tree :: rest => (tree.sketch? keepsEmpty).toList ++ sketchRow keepsEmpty rest

end

variable {keepsEmpty : Bool}

theorem sketchRow_eq_filterMap (trees : List Tree) :
    sketchRow keepsEmpty trees = trees.filterMap (sketch? keepsEmpty) := by
  induction trees with
  | nil => rfl
  | cons tree rest ih =>
    rw [sketchRow, ih, List.filterMap_cons]
    cases tree.sketch? keepsEmpty <;> rfl

theorem sketch?_ofChildren (kind : NodeKind) (error : Option Diagnostic) (openedAt : Nat)
    (children : List Tree) :
    (ofChildren kind error openedAt children).sketch? keepsEmpty =
      Sketch.ofNode? keepsEmpty kind (error.map Diagnostic.cause)
        (children.filterMap (sketch? keepsEmpty)) := by
  rw [ofChildren, sketch?, Option.map_map, sketchRow_eq_filterMap]
  rfl

namespace Direct

def rows (keepsEmpty : Bool) (stack : List Frame) : Sketch.Rows :=
  stack.map fun frame => frame.children.filterMap (sketch? keepsEmpty)

/-- The sketch of the last child of the innermost open node. -/
def tip? (keepsEmpty : Bool) (stack : List Frame) : Option Sketch :=
  (stack.head?.bind fun frame => frame.children.head?).bind (sketch? keepsEmpty)

namespace State

variable {state : State}

theorem rows_adopt (tree : Tree) :
    rows keepsEmpty (state.adopt tree).stack =
      Sketch.Rows.adopt (tree.sketch? keepsEmpty) (rows keepsEmpty state.stack) := by
  cases stacked : state.stack with
  | nil =>
    rw [adopt, stacked]
    dsimp only
    split <;> simp [stacked, rows, Sketch.Rows.adopt]
  | cons frame below =>
    rw [adopt, stacked]
    simp only [rows, List.map_cons, List.filterMap_cons]
    cases tree.sketch? keepsEmpty <;> rfl

theorem rows_token {token : Token} {rest : List Token} (tokens : state.tokens = token :: rest) :
    rows keepsEmpty (state.step .token).stack =
      Sketch.Rows.adopt (Sketch.ofToken? token) (rows keepsEmpty state.stack) := by
  simp only [step, tokens]
  exact rows_adopt _

theorem rows_finish (kind : NodeKind) (error : Option Diagnostic) :
    rows keepsEmpty (state.step (.finish kind error)).stack =
      Sketch.Rows.close keepsEmpty kind (error.map Diagnostic.cause)
        (rows keepsEmpty state.stack) := by
  cases stacked : state.stack with
  | nil =>
    simp only [step, stacked]
    rfl
  | cons frame below =>
    simp only [step, stacked, rows_adopt, sketch?_ofChildren, List.filterMap_reverse]
    rfl

theorem tip?_finish (kind : NodeKind) (error : Option Diagnostic) :
    tip? keepsEmpty (state.step (.finish kind error)).stack =
      Sketch.Rows.closed? keepsEmpty kind (error.map Diagnostic.cause)
        (rows keepsEmpty state.stack) := by
  match stacked : state.stack with
  | [] =>
    simp only [step, stacked]
    rfl
  | [frame] =>
    simp only [step, stacked]
    rfl
  | frame :: parent :: below =>
    rw [step_finish kind error stacked]
    show sketch? keepsEmpty _ = _
    rw [sketch?_ofChildren, List.filterMap_reverse]
    rfl

theorem rows_abandon :
    rows keepsEmpty (state.step .abandon).stack =
      Sketch.Rows.giveUp (rows keepsEmpty state.stack) := by
  match stacked : state.stack with
  | [] =>
    simp only [step, stacked]
    rfl
  | [frame] =>
    simp only [step, stacked]
    rfl
  | frame :: parent :: below =>
    rw [step_abandon stacked]
    simp only [rows, List.map_cons, List.filterMap_append, Sketch.Rows.giveUp]

theorem rows_precede :
    rows keepsEmpty (state.step (.precede 0)).stack =
      Sketch.Rows.enclose (tip? keepsEmpty state.stack).isSome
        (rows keepsEmpty state.stack) := by
  match stacked : state.stack with
  | [] =>
    simp only [step, stacked]
    rfl
  | ⟨openedAt, []⟩ :: below =>
    simp only [step, stacked]
    rfl
  | ⟨openedAt, tree :: rest⟩ :: below =>
    rw [step_precede stacked rfl]
    cases has : tree.sketch? keepsEmpty <;> simp [rows, tip?, Sketch.Rows.enclose, has]

end State

end Direct

end Tree

end Offside
