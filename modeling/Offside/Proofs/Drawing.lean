import Offside.Grammar.Machine
import Offside.Proofs.Building
import Offside.Proofs.Scanning
import Offside.Proofs.Walks

/-!
# What a run has drawn

The trail of a run describes a row of finished trees in nodes that are still
open.  This module says how marks and tokens change that row, that the nodes
around a script stay open, and that the events recorded so far stand for what
has been drawn.
-/

namespace Offside.Tree

def isSyntactic (tree : Tree) : Bool :=
  tree.isOfKind .error && tree.error?.any fun diagnostic => diagnostic.cause = .syntactic

/-- The tree is an error node about something that is missing, so it holds nothing. -/
def isGap (tree : Tree) : Bool :=
  tree.isSyntactic && tree.children.isEmpty

theorem isSyntactic_ofChildren {kind : NodeKind} {error : Option Diagnostic} {openedAt : Nat}
    {children : List Tree} (isSyntactic : (ofChildren kind error openedAt children).isSyntactic) :
    ∃ diagnostic ∈ error, diagnostic.cause = .syntactic := by
  obtain ⟨-, isCause⟩ := Bool.and_eq_true_iff.mp isSyntactic
  cases error with
  | none => cases isCause
  | some diagnostic => exact ⟨diagnostic, rfl, of_decide_eq_true isCause⟩

theorem isGap_ofChildren {diagnostic : Diagnostic} (isCause : diagnostic.cause = .syntactic)
    (openedAt : Nat) : (ofChildren .error (some diagnostic) openedAt []).isGap = true := by
  simp [isGap, isSyntactic, ofChildren, isOfKind, kind?, error?, children, isCause]

end Offside.Tree

namespace Offside.Tree.Direct

/-- The finished trees in all open nodes, from left to right. -/
def rowOf : List Frame → List Tree
  | [] => []
  | frame :: below => rowOf below ++ frame.children.reverse

namespace State

variable {state : State} {frame parent : Frame} {below : List Frame}

theorem step_token {token : Token} {rest : List Token}
    (stack : state.stack = frame :: below) (tokens : state.tokens = token :: rest) :
    state.step .token =
      { state with
        stack := { frame with children := leaf token :: frame.children } :: below
        tokens := rest
        offset := token.span.stop } := by
  simp only [step, tokens, adopt, stack]

theorem step_token_of_tokens {token : Token} {rest : List Token}
    (tokens : state.tokens = token :: rest) :
    (state.step .token).tokens = rest ∧ (state.step .token).offset = token.span.stop := by
  simp only [step, tokens, adopt]
  split
  · split <;> exact ⟨rfl, rfl⟩
  · exact ⟨rfl, rfl⟩

theorem step_finish (kind : NodeKind) (error : Option Diagnostic)
    (stack : state.stack = frame :: parent :: below) :
    state.step (.finish kind error) =
      { state with
        stack := { parent with
          children := ofChildren kind error frame.openedAt frame.children.reverse ::
            parent.children } :: below } := by
  simp only [step, adopt, stack]

theorem step_abandon (stack : state.stack = frame :: parent :: below) :
    state.step .abandon =
      { state with
        stack := { parent with children := frame.children ++ parent.children } ::
          below } := by
  simp only [step, stack]

theorem step_precede {tree : Tree} {rest : List Tree}
    (stack : state.stack = frame :: below) (children : frame.children = tree :: rest) :
    state.step (.precede 0) =
      { state with
        stack := ⟨state.offset, [tree]⟩ :: { frame with children := rest } :: below } := by
  simp only [step, stack, children]
  rfl

end State

end Offside.Tree.Direct

namespace Offside.Grammar

open Offside.Tree (forestLeaves forestNodes)
open Offside.Tree.Direct (rowOf)

/-- What a run works on: the tokens of a text and the fixities in force from the start. -/
structure Scene where
  setting : Setting
  tokens : List Token
  table : OperatorTable

def recorder (state : State) : Trail.Recorder :=
  state.trail.toList.foldl Trail.Recorder.record {}

variable (scene : Scene)

def drawn (state : State) : Tree.Direct.State :=
  Tree.Direct.run scene.tokens state.trail.toList

def stack (state : State) : List Tree.Direct.Frame :=
  (drawn scene state).stack

def kids (state : State) : List Tree :=
  ((stack scene state).head?.map Tree.Direct.Frame.children).getD []

def shown (state : State) : List Tree :=
  rowOf (stack scene state)

def Faulty (state : State) : Prop :=
  ∃ tree ∈ forestNodes (shown scene state), tree.error?.isSome = true

def isFinish : Mark → Bool
  | .finish _ _ => true
  | _ => false

def Finished (state : State) : Prop :=
  state.trail.back?.any isFinish = true

/-- The last child of the innermost open node is a finished node with nothing open around it. -/
def Ended (state : State) : Prop :=
  ∃ frame frames target, (recorder state).frames = frame :: frames ∧
    frame.children[0]? = some (some target)

/-- The trail leaves a node open, and what is recorded so far stands for what it describes. -/
structure Records (state : State) : Prop where
  linked : ∃ dead, Tree.Linked dead scene.tokens (recorder state) (drawn scene state)
  opened : stack scene state ≠ []
  ended : Finished state → Ended state

/-- The trail draws the tokens up to those that are pending, and no report is ahead of it. -/
structure Tracks (state : State) (pending : List Token) : Prop where
  left : (drawn scene state).tokens = pending
  offset : (drawn scene state).offset = state.reached
  laid : Token.Laid state.reached pending
  recent : ∀ offset ∈ state.lastReport, offset ≤ state.reached

/-- Nothing has been drawn, taken or reported in between. -/
structure Steady (before after : State) : Prop where
  trail : after.trail = before.trail
  ahead : after.ahead = before.ahead
  reached : after.reached = before.reached
  report : after.lastReport = before.lastReport

/-- The places where something is reported to be missing in a row of trees. -/
def gaps (row : List Tree) : List Nat :=
  ((forestNodes row).filter Tree.isGap).map fun tree => tree.span.start

/--
Something is missing at most once at each place, and not behind the last report.
What is misplaced holds a token that the grammar sees.
-/
structure Spaced (state : State) : Prop where
  apart : (gaps (shown scene state)).Nodup
  earlier : ∀ gap ∈ gaps (shown scene state), ∃ last ∈ state.lastReport, gap ≤ last
  filled : ∀ tree ∈ forestNodes (shown scene state), tree.isSyntactic = true →
    tree.isGap = true ∨ ∃ token ∈ tree.leaves, token.kind.isVisible = true

/-- The trail draws a row of trees up to the tokens that are pending. -/
structure Draws (state : State) (pending : List Token) : Prop
    extends Records scene state, Tracks scene state pending, Spaced scene state

variable {scene} {state : State} {pending : List Token}

@[simp]
theorem drawn_mark (mark : Mark) :
    drawn scene (state.mark mark) = (drawn scene state).step mark := by
  simp [drawn, State.mark, Tree.Direct.run]

@[simp]
theorem recorder_mark (mark : Mark) :
    recorder (state.mark mark) = (recorder state).record mark := by
  simp [recorder, State.mark]

variable {other : State}

theorem drawn_of_trail (trail : other.trail = state.trail) :
    drawn scene other = drawn scene state := by
  rw [drawn, drawn, trail]

theorem finished_mark_iff (mark : Mark) : Finished (state.mark mark) ↔ isFinish mark = true := by
  rw [Finished, State.mark, Array.back?_push]
  rfl

theorem not_finished_mark {mark : Mark} (other : isFinish mark = false) :
    ¬ Finished (state.mark mark) := by
  rw [finished_mark_iff, other]
  exact Bool.false_ne_true

theorem Finished.of_trail (finished : Finished state) (trail : other.trail = state.trail) :
    Finished other := by
  rw [Finished, trail]
  exact finished

theorem stack_of_trail (trail : other.trail = state.trail) :
    stack scene other = stack scene state := by
  rw [stack, stack, drawn_of_trail trail]

theorem kids_of_stack {frame : Tree.Direct.Frame} {below : List Tree.Direct.Frame}
    (stacked : stack scene state = frame :: below) : kids scene state = frame.children := by
  rw [kids, stacked]
  rfl

theorem step_of_ne_token {drawing : Tree.Direct.State} {mark : Mark} (other : mark ≠ .token) :
    (drawing.step mark).tokens = drawing.tokens ∧
      (drawing.step mark).offset = drawing.offset := by
  cases mark with
  | start => exact ⟨rfl, rfl⟩
  | token => exact absurd rfl other
  | finish kind error =>
    match stacked : drawing.stack with
    | [] => simp [Tree.Direct.State.step, stacked]
    | [frame] =>
      simp [Tree.Direct.State.step, stacked, Tree.Direct.State.adopt, Tree.ofChildren, Tree.isNode]
    | frame :: parent :: below =>
      rw [Tree.Direct.State.step_finish kind error stacked]
      exact ⟨rfl, rfl⟩
  | abandon =>
    simp only [Tree.Direct.State.step]
    split <;> exact ⟨rfl, rfl⟩
  | precede after =>
    simp only [Tree.Direct.State.step]
    split <;> exact ⟨rfl, rfl⟩

/-! ### Marks -/

theorem stack_start :
    stack scene (state.mark .start) =
      ⟨(drawn scene state).offset, []⟩ :: stack scene state := by
  rw [stack, drawn_mark]
  rfl

theorem shown_start : shown scene (state.mark .start) = shown scene state := by
  rw [shown, stack_start, rowOf, List.reverse_nil, List.append_nil, shown]

theorem opened_start (state : State) : stack scene (state.mark .start) ≠ [] := by
  rw [stack_start]
  exact List.cons_ne_nil _ _

theorem kids_start : kids scene (state.mark .start) = [] :=
  kids_of_stack stack_start

theorem drawn_take (token : Token) :
    drawn scene (state.take token) = (drawn scene state).step .token :=
  drawn_mark .token

theorem stack_take {token : Token} {frame : Tree.Direct.Frame}
    {below : List Tree.Direct.Frame} (stacked : stack scene state = frame :: below)
    (left : (drawn scene state).tokens = token :: pending) (given : Token) :
    stack scene (state.take given) =
      { frame with children := .leaf token :: frame.children } :: below := by
  rw [stack, drawn_take, Tree.Direct.State.step_token stacked left]

section Close

variable {frame parent : Tree.Direct.Frame} {below : List Tree.Direct.Frame}

theorem stack_finish (kind : NodeKind) (error : Option Diagnostic)
    (stacked : stack scene state = frame :: parent :: below) :
    stack scene (state.mark (.finish kind error)) =
      { parent with
        children := Tree.ofChildren kind error frame.openedAt frame.children.reverse ::
          parent.children } :: below := by
  rw [stack, drawn_mark, Tree.Direct.State.step_finish kind error stacked]

theorem shown_finish (kind : NodeKind) (error : Option Diagnostic)
    (stacked : stack scene state = frame :: parent :: below) :
    shown scene state = rowOf (parent :: below) ++ frame.children.reverse ∧
      shown scene (state.mark (.finish kind error)) = rowOf (parent :: below) ++
        [Tree.ofChildren kind error frame.openedAt frame.children.reverse] := by
  constructor
  · rw [shown, stacked, rowOf]
  · rw [shown, stack_finish kind error stacked, rowOf, rowOf, List.reverse_cons, List.append_assoc]

theorem perm_forestNodes_finish (kind : NodeKind) (error : Option Diagnostic)
    (stacked : stack scene state = frame :: parent :: below) :
    (forestNodes (shown scene (state.mark (.finish kind error)))).Perm
      (Tree.ofChildren kind error frame.openedAt frame.children.reverse ::
        forestNodes (shown scene state)) := by
  obtain ⟨before, after⟩ := shown_finish kind error stacked
  rw [before, after, Tree.forestNodes_append, Tree.forestNodes_append]
  simp only [forestNodes, List.append_nil]
  exact List.perm_middle

theorem forestNodes_shown_finish (kind : NodeKind) (error : Option Diagnostic)
    (stacked : stack scene state = frame :: parent :: below) (tree : Tree) :
    tree ∈ forestNodes (shown scene (state.mark (.finish kind error))) ↔
      tree = Tree.ofChildren kind error frame.openedAt frame.children.reverse ∨
        tree ∈ forestNodes (shown scene state) :=
  (perm_forestNodes_finish kind error stacked).mem_iff.trans List.mem_cons

theorem faulty_finish (kind : NodeKind) (error : Option Diagnostic)
    (stacked : stack scene state = frame :: parent :: below) (faulty : Faulty scene state) :
    Faulty scene (state.mark (.finish kind error)) := by
  obtain ⟨tree, member, reports⟩ := faulty
  exact ⟨tree, (forestNodes_shown_finish kind error stacked tree).mpr (.inr member),
    reports⟩

theorem faulty_finish_some (kind : NodeKind) (diagnostic : Diagnostic)
    (stacked : stack scene state = frame :: parent :: below) :
    Faulty scene (state.mark (.finish kind (some diagnostic))) :=
  ⟨_, (forestNodes_shown_finish kind _ stacked _).mpr (.inl rfl), rfl⟩

theorem stack_abandon (stacked : stack scene state = frame :: parent :: below) :
    stack scene (state.mark .abandon) =
      { parent with children := frame.children ++ parent.children } :: below := by
  rw [stack, drawn_mark, Tree.Direct.State.step_abandon stacked]

theorem shown_abandon (stacked : stack scene state = frame :: parent :: below) :
    shown scene (state.mark .abandon) = shown scene state := by
  rw [shown, stack_abandon stacked, shown, stacked, rowOf, rowOf, rowOf,
    List.reverse_append, List.append_assoc]

theorem stack_precede (stacked : stack scene state = frame :: below) :
    stack scene (state.mark (.precede 0)) =
      ⟨(drawn scene state).offset, frame.children.take 1⟩ ::
        { frame with children := frame.children.drop 1 } :: below := by
  have stacked : (drawn scene state).stack = frame :: below := stacked
  rw [stack, drawn_mark, Tree.Direct.State.step, stacked]

end Close

theorem opened_precede (opened : stack scene state ≠ []) :
    stack scene (state.mark (.precede 0)) ≠ [] := by
  obtain ⟨frame, below, stacked⟩ := List.exists_cons_of_ne_nil opened
  rw [stack_precede stacked]
  exact List.cons_ne_nil _ _

theorem shown_precede (opened : stack scene state ≠ []) :
    shown scene (state.mark (.precede 0)) = shown scene state := by
  obtain ⟨frame, below, stacked⟩ := List.exists_cons_of_ne_nil opened
  rw [shown, stack_precede stacked, shown, stacked, rowOf, rowOf, rowOf,
    List.append_assoc, ← List.reverse_append, List.take_append_drop]

/-! ### Recorded and drawn -/

namespace Records

theorem of_trail (records : Records scene state) (trail : other.trail = state.trail) :
    Records scene other := by
  obtain ⟨linked, opened, ended⟩ := records
  have same : recorder other = recorder state := by
    rw [recorder, trail, recorder]
  refine ⟨?_, ?_, fun finished => ?_⟩
  · rw [same, drawn_of_trail trail]
    exact linked
  · rw [stack_of_trail trail]
    exact opened
  · rw [Ended, same]
    exact ended (finished.of_trail trail.symm)

theorem recorder_length (records : Records scene state) :
    (recorder state).frames.length = (stack scene state).length := by
  obtain ⟨dead, linked⟩ := records.linked
  exact linked.aligned.length_eq

theorem start (records : Records scene state) : Records scene (state.mark .start) := by
  obtain ⟨dead, linked⟩ := records.linked
  refine ⟨⟨dead, ?_⟩, opened_start state, fun finished => absurd finished (not_finished_mark rfl)⟩
  rw [recorder_mark, drawn_mark]
  exact linked.start

theorem take {token : Token} (records : Records scene state)
    (left : (drawn scene state).tokens = token :: pending) : Records scene (state.take token) := by
  obtain ⟨frame, below, stacked⟩ := List.exists_cons_of_ne_nil records.opened
  have frames := records.recorder_length
  obtain ⟨dead, linked⟩ := records.linked
  have recorded : recorder (state.take token) = (recorder state).record .token :=
    recorder_mark .token
  refine ⟨⟨dead, ?_⟩, ?_, fun finished => absurd finished (not_finished_mark rfl)⟩
  · rw [recorded, drawn_take]
    refine linked.token left fun closed => ?_
    rw [closed, stacked] at frames
    cases frames
  · rw [stack_take stacked left]
    exact List.cons_ne_nil _ _

section Close

variable {frame parent : Tree.Direct.Frame} {below : List Tree.Direct.Frame}

theorem ended_finish (records : Records scene state) (kind : NodeKind)
    (error : Option Diagnostic) (stacked : stack scene state = frame :: parent :: below) :
    Ended (state.mark (.finish kind error)) := by
  have frames := records.recorder_length
  rw [stacked] at frames
  match opened : (recorder state).frames, frames with
  | own :: outer :: rest, _ =>
    have recorded : (recorder (state.mark (.finish kind error))).frames =
        { outer with children := some own.place :: outer.children } :: rest := by
      rw [recorder_mark]
      simp only [Trail.Recorder.record, opened, Trail.Recorder.adopt]
    exact ⟨_, rest, own.place, recorded, rfl⟩

theorem finish (records : Records scene state) (kind : NodeKind) (error : Option Diagnostic)
    (stacked : stack scene state = frame :: parent :: below) :
    Records scene (state.mark (.finish kind error)) := by
  have frames := records.recorder_length
  obtain ⟨dead, linked⟩ := records.linked
  refine ⟨⟨dead, ?_⟩, ?_, fun _ => records.ended_finish kind error stacked⟩
  · rw [recorder_mark, drawn_mark]
    refine linked.finish kind error ?_
    rw [frames, stacked]
    simp
  · rw [stack_finish kind error stacked]
    exact List.cons_ne_nil _ _

theorem abandon (records : Records scene state)
    (stacked : stack scene state = frame :: parent :: below) :
    Records scene (state.mark .abandon) := by
  have frames := records.recorder_length
  obtain ⟨dead, linked⟩ := records.linked
  obtain ⟨wider, abandoned⟩ := linked.abandon (by rw [frames, stacked]; simp)
  refine ⟨⟨wider, ?_⟩, ?_, fun finished => absurd finished (not_finished_mark rfl)⟩
  · rw [recorder_mark, drawn_mark]
    exact abandoned
  · rw [stack_abandon stacked]
    exact List.cons_ne_nil _ _

theorem precede (records : Records scene state) (finished : Finished state) :
    Records scene (state.mark (.precede 0)) := by
  obtain ⟨dead, linked⟩ := records.linked
  obtain ⟨own, frames, target, opened, last⟩ := records.ended finished
  refine ⟨⟨dead, ?_⟩, opened_precede records.opened,
    fun finished => absurd finished (not_finished_mark rfl)⟩
  rw [recorder_mark, drawn_mark]
  exact linked.precede opened last

end Close

end Records

/-! ### Places of reports -/

namespace Tracks

theorem mark (tracks : Tracks scene state pending) (mark : Mark)
    (other : mark ≠ .token) : Tracks scene (state.mark mark) pending where
  left := by rw [drawn_mark, (step_of_ne_token other).1, tracks.left]
  offset := by rw [drawn_mark, (step_of_ne_token other).2, tracks.offset]; rfl
  laid := tracks.laid
  recent := tracks.recent

theorem of_eq (tracks : Tracks scene state pending)
    (trail : other.trail = state.trail) (reached : other.reached = state.reached)
    (report : other.lastReport = state.lastReport) : Tracks scene other pending where
  left := by rw [drawn_of_trail trail, tracks.left]
  offset := by rw [drawn_of_trail trail, tracks.offset, reached]
  laid := by rw [reached]; exact tracks.laid
  recent := by rw [report, reached]; exact tracks.recent

theorem take {token : Token} (tracks : Tracks scene state (token :: pending)) :
    Tracks scene (state.take token) pending := by
  obtain ⟨own, later⟩ := tracks.laid
  have stop : token.span.stop = state.reached + token.text.utf8ByteSize := by rw [own]
  obtain ⟨left, offset⟩ := Tree.Direct.State.step_token_of_tokens tracks.left
  refine ⟨?_, ?_, ?_, ?_⟩
  · rw [drawn_take, left]
  · rw [drawn_take, offset]
    rfl
  · rw [← stop] at later
    exact later
  · intro offset member
    show offset ≤ token.span.stop
    rw [stop]
    exact Nat.le_add_right_of_le (tracks.recent offset member)

theorem report (tracks : Tracks scene state pending) (setting : Setting) (cause : Cause)
    (expected : List TokenKind) : Tracks scene (state.report setting cause expected) pending := by
  rw [State.report]
  split
  · exact tracks
  · have marked := (tracks.mark .start (by rintro ⟨⟩)).mark
      (.finish .error (some (state.diagnose setting cause expected))) (by rintro ⟨⟩)
    refine ⟨marked.left, marked.offset, marked.laid, fun offset member => ?_⟩
    split at member
    · rw [← Option.some.inj member]
      exact Nat.le_refl _
    · exact tracks.recent offset member

end Tracks

namespace Spaced

theorem of_perm (new : List Tree) (spaced : Spaced scene state)
    (report : other.lastReport = state.lastReport)
    (nodes : (forestNodes (shown scene other)).Perm (new ++ forestNodes (shown scene state)))
    (filled : ∀ tree ∈ new, tree.isSyntactic = true →
      ∃ token ∈ tree.leaves, token.kind.isVisible = true) : Spaced scene other := by
  have noGap : new.filter Tree.isGap = [] := List.filter_eq_nil_iff.mpr fun tree member isGap => by
    obtain ⟨isSyntactic, childless⟩ := Bool.and_eq_true_iff.mp isGap
    obtain ⟨token, inside, -⟩ := filled tree member isSyntactic
    cases tree with
    | leaf => cases isSyntactic
    | node kind span error children =>
      obtain rfl : children = [] := List.isEmpty_iff.mp childless
      exact absurd inside List.not_mem_nil
  have same : (gaps (shown scene other)).Perm (gaps (shown scene state)) := by
    have filtered := nodes.filter Tree.isGap
    rw [List.filter_append, noGap] at filtered
    exact filtered.map _
  refine ⟨same.nodup_iff.mpr spaced.apart, ?_, ?_⟩
  · intro gap member
    rw [report]
    exact spaced.earlier gap (same.mem_iff.mp member)
  · intro tree member isSyntactic
    rcases List.mem_append.mp (nodes.mem_iff.mp member) with isNew | old
    · exact .inr (filled tree isNew isSyntactic)
    · exact spaced.filled tree old isSyntactic

theorem of_shown (spaced : Spaced scene state) (report : other.lastReport = state.lastReport)
    (same : forestNodes (shown scene other) = forestNodes (shown scene state)) :
    Spaced scene other :=
  spaced.of_perm [] report (.of_eq same) (List.forall_mem_nil _)

end Spaced

namespace Draws

variable {frame parent : Tree.Direct.Frame} {below : List Tree.Direct.Frame}

theorem of_trail (draws : Draws scene state pending) (trail : other.trail = state.trail)
    (reached : other.reached = state.reached) (report : other.lastReport = state.lastReport) :
    Draws scene other pending :=
  ⟨draws.toRecords.of_trail trail, draws.toTracks.of_eq trail reached report,
    draws.toSpaced.of_shown report (by rw [shown, stack_of_trail trail, shown])⟩

theorem start (draws : Draws scene state pending) : Draws scene (state.mark .start) pending :=
  ⟨draws.toRecords.start, draws.toTracks.mark .start (by rintro ⟨⟩),
    draws.toSpaced.of_shown rfl (by rw [shown_start])⟩

theorem take {token : Token} (draws : Draws scene state (token :: pending)) :
    Draws scene (state.take token) pending := by
  obtain ⟨frame, below, stacked⟩ := List.exists_cons_of_ne_nil draws.opened
  refine ⟨draws.toRecords.take draws.left, draws.toTracks.take, draws.toSpaced.of_shown rfl ?_⟩
  rw [shown, stack_take stacked draws.left, shown, stacked, rowOf, List.reverse_cons,
    ← List.append_assoc, Tree.forestNodes_append]
  exact List.append_nil _

theorem finish (draws : Draws scene state pending) (kind : NodeKind) (error : Option Diagnostic)
    (stacked : stack scene state = frame :: parent :: below)
    (filled : ∀ diagnostic ∈ error, diagnostic.cause = .syntactic →
      ∃ token ∈ forestLeaves (kids scene state).reverse, token.kind.isVisible = true) :
    Draws scene (state.mark (.finish kind error)) pending := by
  refine ⟨draws.toRecords.finish kind error stacked, draws.toTracks.mark _ (by rintro ⟨⟩),
    draws.toSpaced.of_perm [_] rfl (perm_forestNodes_finish kind error stacked) ?_⟩
  rintro tree member isSyntactic
  rw [List.mem_singleton.mp member] at isSyntactic ⊢
  rw [kids_of_stack stacked] at filled
  obtain ⟨diagnostic, isError, isCause⟩ := Tree.isSyntactic_ofChildren isSyntactic
  exact filled diagnostic isError isCause

theorem abandon (draws : Draws scene state pending)
    (stacked : stack scene state = frame :: parent :: below) :
    Draws scene (state.mark .abandon) pending :=
  ⟨draws.toRecords.abandon stacked, draws.toTracks.mark _ (by rintro ⟨⟩),
    draws.toSpaced.of_shown rfl (by rw [shown_abandon stacked])⟩

theorem precede (draws : Draws scene state pending) (finished : Finished state) :
    Draws scene (state.mark (.precede 0)) pending :=
  ⟨draws.toRecords.precede finished, draws.toTracks.mark _ (by rintro ⟨⟩),
    draws.toSpaced.of_shown rfl (by rw [shown_precede draws.opened])⟩

theorem report (draws : Draws scene state pending) (setting : Setting) (expected : List TokenKind) :
    Draws scene (state.report setting .syntactic expected) pending := by
  have tracks := draws.toTracks.report setting .syntactic expected
  revert tracks
  rw [State.report]
  split
  · exact fun _ => draws
  · next fresh =>
      generalize isDiagnostic : state.diagnose setting .syntactic expected = diagnostic
      have isGap := Tree.isGap_ofChildren (show diagnostic.cause = .syntactic by
        rw [← isDiagnostic]; rfl) state.reached
      obtain ⟨parent, below, stacked⟩ := List.exists_cons_of_ne_nil draws.opened
      have opened : stack scene (state.mark .start) = _ := stack_start
      rw [stacked, draws.offset] at opened
      have nodes := perm_forestNodes_finish .error (some diagnostic) opened
      rw [shown_start, List.reverse_nil] at nodes
      have same : (gaps (shown scene ((state.mark .start).mark
          (.finish .error (some diagnostic))))).Perm
          (state.reached :: gaps (shown scene state)) := by
        have filtered := nodes.filter Tree.isGap
        rw [List.filter_cons_of_pos isGap] at filtered
        exact filtered.map _
      refine fun tracks => ⟨(draws.start.toRecords.finish .error _ opened).of_trail rfl, tracks,
        same.nodup_iff.mpr (List.nodup_cons.mpr ⟨fun member => ?_, draws.apart⟩), ?_, ?_⟩
      · obtain ⟨last, isLast, late⟩ := draws.earlier _ member
        have recent := draws.recent last isLast
        obtain rfl : last = state.reached := Nat.le_antisymm recent late
        exact fresh (by simpa using isLast)
      · intro gap member
        refine ⟨state.reached, rfl, ?_⟩
        rcases List.mem_cons.mp (same.mem_iff.mp member) with rfl | old
        · exact Nat.le_refl _
        · obtain ⟨last, isLast, late⟩ := draws.earlier gap old
          exact late.trans (draws.recent last isLast)
      · intro tree member isSyntactic
        rcases List.mem_cons.mp (nodes.mem_iff.mp member) with rfl | old
        · exact .inl isGap
        · exact draws.filled tree old isSyntactic

end Draws

end Offside.Grammar
