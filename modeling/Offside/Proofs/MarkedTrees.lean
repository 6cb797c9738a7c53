import Mathlib.Data.List.Forall2
import Offside.Proofs.Building

/-!
# Every trail describes its tree

Which marks may come next can be told from the children of the open nodes: a
token is taken while there is one, a node is closed or given up inside another
one, and a node is opened only around a finished child of the open node, and
around each child at most once.  Whatever marks keep to this between the first,
which opens the outermost node, and the last, which closes it, the events that
they leave describe the tree that they describe directly.
-/

namespace Offside

namespace Trail

/-- A child of an open node: a token, or a finished node with another opened around it or not. -/
inductive Child where
  | token
  | node (preceded : Bool)
deriving DecidableEq

/-- The child is a node that no other has been opened around. -/
def Child.isFree : Child → Bool
  | node false => true
  | _ => false

/--
What decides which marks may come next: how many tokens are left, and the
children of the open nodes, of the innermost node first and the last child first.
-/
structure Desk where
  supply : Nat
  rows : List (List Child)

/--
The desk behind a mark, if the mark may come next inside the outermost node.
A token is taken only while one is left: building passes over a surplus one,
but a node is opened around a child by the number of children behind it, and
those would include a token that is not there.
-/
def Desk.mark? : Desk → Mark → Option Desk
  | ⟨supply, rows⟩, .start => some ⟨supply, [] :: rows⟩
  | ⟨supply + 1, row :: rows⟩, .token => some ⟨supply, (.token :: row) :: rows⟩
  | ⟨supply, _ :: row :: rows⟩, .finish _ _ => some ⟨supply, (.node false :: row) :: rows⟩
  | ⟨supply, inner :: row :: rows⟩, .abandon => some ⟨supply, (inner ++ row) :: rows⟩
  | ⟨supply, row :: rows⟩, .precede after =>
    if row[after]? = some (.node false) then
      some ⟨supply, (row.take after ++ [.node true]) :: row.drop (after + 1) :: rows⟩
    else none
  | _, _ => none

/-- The row tells which children of the frame a node may be opened around. -/
def Describes (row : List Child) (frame : Frame) : Prop :=
  row.map Child.isFree = frame.children.map Option.isSome

namespace Describes

variable {row : List Child} {frame : Frame}

theorem cons {child : Child} {place : Option Nat} (describes : Describes row frame)
    (same : child.isFree = place.isSome) :
    Describes (child :: row) { frame with children := place :: frame.children } := by
  rw [Describes, List.map_cons, List.map_cons, same, describes]

theorem append {inner : List Child} {opened : Frame} (describes : Describes row frame)
    (above : Describes inner opened) :
    Describes (inner ++ row) { frame with children := opened.children ++ frame.children } := by
  rw [Describes, List.map_append, List.map_append, describes, above]

theorem exists_place (describes : Describes row frame) {after : Nat}
    (found : row[after]? = some (.node false)) :
    ∃ target, frame.children[after]? = some (some target) := by
  have same := congrArg (fun flags => flags[after]?) describes
  simp only [List.getElem?_map, found] at same
  obtain ⟨place, isPlace, isNode⟩ := Option.map_eq_some_iff.mp same.symm
  obtain ⟨target, rfl⟩ := Option.isSome_iff_exists.mp isNode
  exact ⟨target, isPlace⟩

/-- The children behind the one that a node is opened around, and that one, go into the node. -/
theorem take (describes : Describes row frame) {after : Nat}
    (found : row[after]? = some (.node false)) (place : Nat) :
    Describes (row.take after ++ [.node true])
      ⟨place, (frame.children.take (after + 1)).set after none⟩ := by
  obtain ⟨target, isTarget⟩ := describes.exists_place found
  have taken := Tree.set_take_succ_map id isTarget
  rw [List.map_id, List.map_id] at taken
  rw [Describes, taken, List.map_append, List.map_append, List.map_take, describes, List.map_take]
  rfl

theorem drop (describes : Describes row frame) (after : Nat) :
    Describes (row.drop (after + 1))
      { frame with children := frame.children.drop (after + 1) } := by
  rw [Describes, List.map_drop, describes, List.map_drop]

end Describes

end Trail

namespace Tree

open Trail (Child Desk Describes)

variable {dead : Nat → Prop} {tokens : List Token} {recorder : Trail.Recorder}
  {state : Direct.State} {desk : Desk}

theorem Direct.tokens_adopt (state : Direct.State) (child : Tree) :
    (state.adopt child).tokens = state.tokens := by
  rw [Direct.State.adopt]
  split
  · split <;> rfl
  · rfl

/-- What is recorded, what the marks describe directly and the desk belong together. -/
structure Follows (tokens : List Token) (desk : Desk) (recorder : Trail.Recorder)
    (state : Direct.State) : Prop where
  linked : ∃ dead, Linked dead tokens recorder state
  supply : desk.supply = state.tokens.length
  rows : List.Forall₂ Describes desk.rows recorder.frames

namespace Follows

theorem start (follows : Follows tokens desk recorder state) :
    Follows tokens ⟨desk.supply, [] :: desk.rows⟩ (recorder.record .start)
      (state.step .start) where
  linked := follows.linked.imp fun _ linked => linked.start
  supply := follows.supply
  rows := .cons rfl follows.rows

theorem mark {mark : Mark} {next : Desk} (follows : Follows tokens desk recorder state)
    (allowed : desk.mark? mark = some next) :
    Follows tokens next (recorder.record mark) (state.step mark) := by
  obtain ⟨⟨dead, linked⟩, isSupply, isRows⟩ := id follows
  obtain ⟨supply, rows⟩ := desk
  obtain ⟨events, frames⟩ := recorder
  cases mark with
  | start =>
    cases allowed
    exact follows.start
  | token =>
    cases isRows with
    | nil => cases supply <;> cases allowed
    | cons describes others =>
      cases supply with
      | zero => cases allowed
      | succ supply =>
        cases allowed
        obtain ⟨token, rest, more⟩ := List.exists_cons_of_length_eq_add_one isSupply.symm
        refine ⟨⟨dead, linked.token more (by simp)⟩, ?_, .cons (describes.cons rfl) others⟩
        rw [more] at isSupply
        rw [Direct.State.step, more]
        rw [Direct.tokens_adopt]
        exact Nat.add_right_cancel isSupply
  | finish kind error =>
    cases isRows with
    | nil => cases allowed
    | cons _ others =>
      cases others with
      | nil => cases allowed
      | cons describes others =>
        cases allowed
        refine ⟨⟨dead, linked.finish kind error (by simp)⟩, ?_,
          .cons (describes.cons rfl) others⟩
        obtain ⟨_, _, _, top, up, stack, -, stacked⟩ := linked.enclosed_cases (by simp)
        rw [Direct.State.step, stacked]
        exact isSupply
  | abandon =>
    cases isRows with
    | nil => cases allowed
    | cons above others =>
      cases others with
      | nil => cases allowed
      | cons describes others =>
        cases allowed
        refine ⟨linked.abandon (by simp), ?_, .cons (describes.append above) others⟩
        obtain ⟨_, _, _, top, up, stack, -, stacked⟩ := linked.enclosed_cases (by simp)
        rw [Direct.State.step, stacked]
        exact isSupply
  | precede after =>
    cases isRows with
    | nil => cases allowed
    | cons describes others =>
      rw [Desk.mark?] at allowed
      split at allowed
      · next found =>
          cases allowed
          obtain ⟨target, isTarget⟩ := describes.exists_place found
          refine ⟨⟨dead, linked.precede rfl isTarget⟩, ?_,
            .cons (describes.take found _) (.cons (describes.drop after) others)⟩
          rw [Direct.State.step]
          split
          · exact isSupply
          · exact isSupply
      · cases allowed

theorem marks {trail : List Mark} {last : Desk} (follows : Follows tokens desk recorder state)
    (allowed : trail.foldlM Desk.mark? desk = some last) :
    Follows tokens last (trail.foldl Trail.Recorder.record recorder)
      (trail.foldl Direct.State.step state) := by
  induction trail generalizing desk recorder state with
  | nil =>
    cases allowed
    exact follows
  | cons mark rest ih =>
    obtain ⟨next, first, later⟩ := Option.bind_eq_some_iff.mp allowed
    exact ih (follows.mark first) later

end Follows

/--
Whatever marks come between those that open and close the outermost node, as
long as each may come next, the events that they leave are built into the tree
that the marks describe directly.
-/
theorem build_events_eq_direct (tokens : List Token) (inner : List Mark) (kind : NodeKind)
    (error : Option Diagnostic) {supply : Nat} {row : List Child}
    (allowed : inner.foldlM Desk.mark? ⟨tokens.length, [[]]⟩ = some ⟨supply, [row]⟩) :
    build tokens (Trail.events (.start :: inner ++ [.finish kind error])) =
      Direct.tree tokens (.start :: inner ++ [.finish kind error]) := by
  have opened : Follows tokens ⟨tokens.length, []⟩ {} { tokens } :=
    ⟨⟨_, linked_init tokens⟩, rfl, .nil⟩
  obtain ⟨⟨dead, linked⟩, -, rows⟩ := opened.start.marks allowed
  rw [Trail.events, Direct.tree, Direct.run, List.cons_append, List.foldl_cons, List.foldl_cons,
    List.foldl_append, List.foldl_append, List.foldl_cons, List.foldl_cons, List.foldl_nil,
    List.foldl_nil]
  generalize inner.foldl Trail.Recorder.record _ = recorder at linked rows ⊢
  generalize inner.foldl Direct.State.step _ = state at linked ⊢
  obtain ⟨frame, others, -, noOther, only⟩ := List.forall₂_cons_left_iff.mp rows
  rw [List.forall₂_nil_left_iff.mp noOther] at only
  obtain ⟨top, stacked, built⟩ := linked.build_finish kind error only
  rw [built, Direct.State.step, stacked]
  rfl

/-- An operator with a node around its operands, and a node around that one that is given up. -/
theorem build_events_eq_direct_wrapping :
    let tokens : List Token := [⟨.integer, ⟨0, 1⟩, "1"⟩, ⟨.operator, ⟨1, 2⟩, "+"⟩,
      ⟨.integer, ⟨2, 3⟩, "2"⟩]
    let inner : List Mark := [.start, .token, .finish .exprLiteral none, .precede 0, .start, .token,
      .finish .operator none, .start, .token, .finish .exprLiteral none, .finish .exprBinary none,
      .precede 0, .abandon]
    let trail := .start :: inner ++ [.finish .wholeModule none]
    inner.foldlM Desk.mark? ⟨tokens.length, [[]]⟩ = some ⟨0, [[.node true]]⟩ ∧
      build tokens (Trail.events trail) = Direct.tree tokens trail ∧
      (Direct.tree tokens trail).nodes.map kind? = [some .wholeModule, some .exprBinary,
        some .exprLiteral, some .operator, some .exprLiteral] :=
  ⟨rfl, build_events_eq_direct _ _ _ _ rfl, rfl⟩

end Tree

end Offside
