import Offside.Layout

/-!
# How a token cuts the stack

Whatever rule a significant token falls under, it takes some frames off the
top of the stack, never the root, and the marks put in front of it tell which:
the end of every block among them and, under the offside rule alone, a fault
for every bracket.  The offside rule then greets the token according to the
frame that it stops at.  All that is known about these rules follows from the
two equations below.
-/

namespace Offside.Layout

def Frame.isRoot : Frame → Bool
  | .root _ => true
  | _ => false

/-- The frame is a context, which items of a line can belong to. -/
def Frame.isContext : Frame → Bool
  | .root _ => true
  | .block _ _ => true
  | _ => false

/-- The mark for a frame that is left: the end of a block or, if wanted, an open bracket. -/
def Frame.leaving (reports : Bool) : Frame → List TokenKind
  | .block _ _ => [.layoutEnd]
  | .bracket => if reports then [.layoutError .unclosedDelimiter] else []
  | _ => []

def leavings (reports : Bool) (frames : Stack) : List TokenKind :=
  frames.flatMap (Frame.leaving reports)

/--
What the offside rule puts right in front of a token at the column when it has
come to a frame that stays; `popped` tells whether it has ended a block.
-/
def greeting (column : Nat) (popped : Bool) : Stack → List TokenKind
  | .block _ blockColumn :: _ =>
    if column = blockColumn then [.layoutSep]
    else if popped then [.layoutError .misaligned] else []
  | .root rootColumn :: _ =>
    if column < rootColumn then [.layoutError .leftOfRoot, .layoutSep]
    else if column = rootColumn then [.layoutSep]
    else if popped then [.layoutError .misaligned] else []
  | _ => []

theorem greeting_cases (column : Nat) (popped : Bool) (stack : Stack) :
    greeting column popped stack = [] ∨
      greeting column popped stack = [.layoutError .misaligned] ∨
      greeting column popped stack = [.layoutSep] ∨
      greeting column popped stack = [.layoutError .leftOfRoot, .layoutSep] := by
  unfold greeting
  split
  · split
    · exact .inr (.inr (.inl rfl))
    · cases popped <;> simp
  · split
    · exact .inr (.inr (.inr rfl))
    · split
      · exact .inr (.inr (.inl rfl))
      · cases popped <;> simp
  · exact .inl rfl

theorem closings_eq_leavings (frames : Stack) : closings frames = leavings false frames := by
  induction frames with
  | nil => rfl
  | cons frame rest ih =>
    cases frame with
    | block kind column => exact congrArg _ ih
    | root | bracket | pendingThen | pendingElse => exact ih

/-! ### Where the stack is cut -/

variable {stack above below : Stack}

theorem splitAtBracket_eq (found : splitAtBracket? stack = some (above, below)) :
    stack = above ++ .bracket :: below := by
  induction stack generalizing above with
  | nil => simp [splitAtBracket?] at found
  | cons frame rest ih =>
    cases frame with
    | bracket =>
      obtain ⟨rfl, rfl⟩ := found
      rfl
    | root | block | pendingThen | pendingElse =>
      simp only [splitAtBracket?, Option.map_eq_some_iff, Prod.exists] at found
      obtain ⟨above, below, split, rfl, rfl⟩ := found
      rw [ih split]
      rfl

theorem splitAfter_eq {wanted : Frame → Bool}
    (found : splitAfter? wanted stack = some (above, below)) :
    ∃ front frame, above = front ++ [frame] ∧ wanted frame = true ∧ stack = above ++ below := by
  induction stack generalizing above with
  | nil => simp [splitAfter?] at found
  | cons frame rest ih =>
    unfold splitAfter? at found
    split at found
    · next holds =>
        obtain ⟨rfl, rfl⟩ := found
        exact ⟨[], frame, rfl, holds, rfl⟩
    · split at found
      · simp at found
      · simp at found
      · simp only [Option.map_eq_some_iff, Prod.exists] at found
        obtain ⟨inner, under, split, rfl, rfl⟩ := found
        obtain ⟨front, last, rfl, holds, equal⟩ := ih split
        exact ⟨frame :: front, last, rfl, holds, by rw [equal]; rfl⟩

/-- The offside rule leaves frames one by one and greets the token at the first that stays. -/
theorem offside_eq (kind : TokenKind) (column : Nat) (popped : Bool) (stack : Stack) :
    ∃ above below, stack = above ++ below ∧ (∀ frame ∈ above, frame.isRoot = false) ∧
      offside kind column popped stack = (below, leavings true above ++
        greeting column (popped || above.any Frame.isBlock) below) := by
  fun_induction offside kind column popped stack with
  | case2 popped rest outer enclosed left ih | case5 popped rest outer enclosed left ih =>
    obtain ⟨above, below, rfl, noRoot, equal⟩ := ih
    exact ⟨_ :: above, below, rfl, List.forall_mem_cons.mpr ⟨rfl, noRoot⟩, equal⟩
  | case8 popped rest outer enclosed left stack inserted result ih =>
    obtain ⟨above, below, rfl, noRoot, equal⟩ := ih
    refine ⟨_ :: above, below, rfl, List.forall_mem_cons.mpr ⟨rfl, noRoot⟩, ?_⟩
    rw [result, Prod.mk.injEq] at equal
    rw [equal.1, equal.2]
    rfl
  | case12 popped block blockColumn rest _ left stack inserted result ih =>
    obtain ⟨above, below, rfl, noRoot, equal⟩ := ih
    refine ⟨_ :: above, below, rfl, List.forall_mem_cons.mpr ⟨rfl, noRoot⟩, ?_⟩
    rw [result, Prod.mk.injEq] at equal
    rw [equal.1, equal.2, List.any_cons, Frame.isBlock, Bool.true_or, Bool.or_true]
    rfl
  | case11 | case13 | case14 =>
    refine ⟨[], _, rfl, by simp, ?_⟩
    simp [leavings, greeting, *]
  | _ => exact ⟨[], _, rfl, by simp, rfl⟩

/--
What a significant token makes of the stack and what is put in front of it,
by a rule of its own or by the offside rule.
-/
inductive Cuts (column : Nat) (applies : Bool) : Stack → Stack × List TokenKind → Prop where
  | ownRule (above below added : Stack) (keepsRoot : ∀ frame ∈ above.getLast?, frame.isRoot = false)
      (light : ∀ frame ∈ added, frame.isContext = false) :
      Cuts column applies (above ++ below) (added ++ below, leavings false above)
  | offsideRule (above below : Stack) (keepsRoot : ∀ frame ∈ above.getLast?, frame.isRoot = false)
      (isFirst : applies = true) :
      Cuts column applies (above ++ below)
        (below, leavings true above ++ greeting column (above.any Frame.isBlock) below)

namespace Cuts

variable {column : Nat} {applies : Bool}

theorem ordinary (kind : TokenKind) (column : Nat) (applies : Bool) (stack : Stack) :
    Cuts column applies stack
      (if applies then offside kind column false stack else (stack, [])) := by
  split
  · next isFirst =>
      obtain ⟨above, below, rfl, noRoot, equal⟩ := offside_eq kind column false stack
      rw [equal]
      exact .offsideRule above below
        (fun frame last => noRoot frame (List.mem_of_getLast? last)) isFirst
  · exact .ownRule [] stack [] nofun nofun

theorem ofSplit {frame : Frame} (added : Stack) (split : stack = above ++ frame :: below)
    (notRoot : frame.isRoot = false) (light : ∀ frame ∈ added, frame.isContext = false) :
    Cuts column applies stack (added ++ below, leavings false (above ++ [frame])) := by
  rw [split, List.append_cons]
  refine .ownRule _ below added (fun last isLast => ?_) light
  rw [List.getLast?_concat, Option.mem_some_iff] at isLast
  rw [← isLast, notRoot]

theorem splitAtBracket (added : Stack) (found : splitAtBracket? stack = some (above, below))
    (light : ∀ frame ∈ added, frame.isContext = false) :
    Cuts column applies stack (added ++ below, closings above) := by
  have same : leavings false (above ++ [.bracket]) = closings above := by
    rw [closings_eq_leavings, leavings, List.flatMap_append]
    exact List.append_nil _
  exact same ▸ ofSplit added (splitAtBracket_eq found) rfl light

theorem splitAfter {wanted : Frame → Bool} (added : Stack)
    (found : splitAfter? wanted stack = some (above, below))
    (skipsRoot : ∀ column, wanted (.root column) = false)
    (light : ∀ frame ∈ added, frame.isContext = false) :
    Cuts column applies stack (added ++ below, closings above) := by
  obtain ⟨front, frame, rfl, holds, rfl⟩ := splitAfter_eq found
  rw [closings_eq_leavings]
  refine ofSplit added (List.append_cons ..).symm ?_ light
  cases frame with
  | root column => rw [skipsRoot] at holds; cases holds
  | block | bracket | pendingThen | pendingElse => rfl

end Cuts

theorem before_cuts (kind : TokenKind) (column : Nat) (applies : Bool) (stack : Stack) :
    Cuts column applies stack (before kind column applies stack) := by
  have ordinary := Cuts.ordinary kind column applies stack
  unfold before
  dsimp only
  split
  · split
    · next found => exact .splitAtBracket [] found nofun
    · exact ordinary
  · split
    · next found => exact .splitAtBracket [.bracket] found (by simp [Frame.isContext])
    · exact ordinary
  · split
    · next found => exact .splitAfter [] found (fun _ => rfl) nofun
    · exact ordinary
  · split
    · next found => exact .splitAfter [.pendingElse] found (by simp) (by simp [Frame.isContext])
    · exact ordinary
  · split
    · next found => exact .splitAfter [] found (by simp) nofun
    · exact ordinary
  · have cut : Cuts column applies (stack.takeWhile (Frame.endsAtWhere column) ++
        stack.dropWhile (Frame.endsAtWhere column)) (collapseWhere column stack) := by
      rw [collapseWhere, closings_eq_leavings]
      refine .ownRule _ _ [] (fun frame last => ?_) nofun
      have ends := List.all_eq_true.mp List.all_takeWhile frame (List.mem_of_getLast? last)
      cases frame with
      | root column => cases ends
      | block | bracket | pendingThen | pendingElse => rfl
    rwa [List.takeWhile_append_dropWhile] at cut
  · exact ordinary

theorem before_false (kind : TokenKind) (column : Nat) (stack : Stack) :
    ∃ above below added, stack = above ++ below ∧
      (∀ frame ∈ added, frame.isContext = false) ∧
      before kind column false stack = (added ++ below, leavings false above) := by
  have cuts := before_cuts kind column false stack
  generalize before kind column false stack = result at cuts ⊢
  cases cuts with
  | ownRule above below added keepsRoot light => exact ⟨above, below, added, rfl, light, rfl⟩
  | offsideRule above below keepsRoot isFirst => cases isFirst

theorem openPending_cases (state : State) (column : Nat) :
    openPending state column = (state.stack, [], false) ∨
      openPending state column = (state.stack, [.layoutStart, .layoutEnd], false) ∨
      ∃ block, openPending state column =
        (.block block column :: state.stack, [.layoutStart], true) := by
  unfold openPending
  split
  · exact .inl rfl
  · split
    · exact .inr (.inr ⟨_, rfl⟩)
    · exact .inr (.inl rfl)

/-! ### The stack that a token leaves -/

/--
What a significant token leaves of the stack, before it opens a frame of its
own, and what is put in front of it.
-/
def State.cut (state : State) (token : Token) : Stack × List TokenKind :=
  match state.stack with
  | [] => ([.root state.column], [])
  | _ :: _ =>
    let (opened, starts, isOpen) := openPending state state.column
    let (stack, inserted) :=
      before token.kind state.column (state.lineStart && !isOpen) opened
    (stack, starts ++ inserted)

theorem State.significant_stack (tabWidth : Nat) (state : State) (token : Token) :
    (state.significant tabWidth token).1.stack =
      (openedFrame? token.kind).toList ++ (state.cut token).1 := by
  rfl

theorem State.significant_inserted (tabWidth : Nat) (state : State) (token : Token) :
    (state.significant tabWidth token).2 = (state.cut token).2 := by
  rfl

/-- From the first significant token on, a token may open the pending block before it cuts. -/
theorem State.cut_eq {state : State} (token : Token) (started : state.stack ≠ []) :
    state.cut token =
      ((before token.kind state.column (state.lineStart && !(openPending state state.column).2.2)
          (openPending state state.column).1).1,
        (openPending state state.column).2.1 ++
          (before token.kind state.column
            (state.lineStart && !(openPending state state.column).2.2)
            (openPending state state.column).1).2) := by
  unfold State.cut
  split
  · next isEmpty => exact absurd isEmpty started
  · rfl

end Offside.Layout
