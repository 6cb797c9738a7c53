import Offside.Proofs.LayoutRun

/-!
# The stack of the layout resolver

From the first significant token on, the root lies at the bottom of the stack
and nowhere else, and a block stands to the right of the context that encloses
it.  Only a block that a `where` opens directly on the root may stand at the
column of the root itself, in a text that starts with `module`.  Every step of
the resolver cuts the stack somewhere above the root and puts at most two
frames on top, so these facts survive every run.
-/

namespace Offside.Layout

variable (headed : Bool) (rootColumn : Nat) in
/--
A stack as the resolver builds it: the root at the bottom, every block to the
right of its context.  `headed` tells whether the text starts with `module`.
-/
inductive Stacked : Stack → Prop where
  | root : Stacked [.root rootColumn]
  | block (kind : Block) (column : Nat) {below : Stack} (stacked : Stacked below)
      (indented : ∀ outer, enclosing? below = some outer →
        outer.column < column ∨ headed = true ∧ kind = .whereBlock ∧
          column = rootColumn ∧ below = [.root rootColumn]) :
      Stacked (.block kind column :: below)
  | light {frame : Frame} {below : Stack} (notContext : frame.isContext = false)
      (stacked : Stacked below) :
      Stacked (frame :: below)

namespace Stacked

variable {headed : Bool} {rootColumn : Nat} {above below stack : Stack} {frame : Frame}

theorem tail (stacked : Stacked headed rootColumn (frame :: below))
    (notRoot : frame.isRoot = false) : Stacked headed rootColumn below := by
  cases stacked with
  | root => cases notRoot
  | block kind column stacked indented => exact stacked
  | light notContext stacked => exact stacked

theorem append (stacked : Stacked headed rootColumn below)
    (light : ∀ frame ∈ above, frame.isContext = false) :
    Stacked headed rootColumn (above ++ below) := by
  induction above with
  | nil => exact stacked
  | cons frame above ih =>
    obtain ⟨first, others⟩ := List.forall_mem_cons.mp light
    exact .light first (ih others)

theorem under (stacked : Stacked headed rootColumn (above ++ below))
    (keepsRoot : ∀ frame ∈ above.getLast?, frame.isRoot = false) :
    Stacked headed rootColumn below := by
  induction above with
  | nil => exact stacked
  | cons top above ih =>
    cases above with
    | nil => exact stacked.tail (keepsRoot top rfl)
    | cons next above =>
      cases stacked with
      | block kind column stacked indented => exact ih stacked keepsRoot
      | light notContext stacked => exact ih stacked keepsRoot

theorem le_column {kind : Block} {column : Nat}
    (stacked : Stacked headed rootColumn (.block kind column :: below)) {outer : Enclosing}
    (enclosed : enclosing? below = some outer) : outer.column ≤ column := by
  cases stacked with
  | light notContext => cases notContext
  | block _ _ stacked indented =>
    rcases indented outer enclosed with right | ⟨-, -, same, isRoot⟩
    · exact Nat.le_of_lt right
    · subst isRoot
      cases enclosed
      exact Nat.le_of_eq same.symm

theorem eq_root_of_length (stacked : Stacked headed rootColumn stack) (alone : stack.length = 1) :
    stack = [.root rootColumn] := by
  cases stacked with
  | root => rfl
  | block kind column stacked indented => cases stacked <;> cases alone
  | light notContext stacked => cases stacked <;> cases alone

end Stacked

/-! ### Steps -/

variable {rootColumn : Nat} {state : State}

theorem stacked_before {headed : Bool} {stack : Stack} (kind : TokenKind) (column : Nat)
    (applies : Bool) (stacked : Stacked headed rootColumn stack) :
    Stacked headed rootColumn (before kind column applies stack).1 := by
  have cuts := before_cuts kind column applies stack
  generalize before kind column applies stack = result at cuts ⊢
  cases cuts with
  | ownRule above below added keepsRoot light => exact (stacked.under keepsRoot).append light
  | offsideRule above below keepsRoot isFirst => exact stacked.under keepsRoot

theorem stacked_openPending (column : Nat)
    (stacked : Stacked state.startsWithModule rootColumn state.stack) :
    Stacked state.startsWithModule rootColumn (openPending state column).1 := by
  unfold openPending
  split
  · exact stacked
  · next block _ =>
      split
      · next opens =>
          refine .block block column stacked fun outer enclosed => ?_
          simp only [canOpen, enclosed, Bool.or_eq_true, Bool.and_eq_true,
            decide_eq_true_eq] at opens
          rcases opens with right | ⟨⟨⟨⟨-, isWhere⟩, starts⟩, alone⟩, reached⟩
          · exact .inl right
          · have isRoot := stacked.eq_root_of_length alone
            rw [isRoot] at enclosed
            cases enclosed
            rcases Nat.lt_or_eq_of_le reached with right | same
            · exact .inl right
            · exact .inr ⟨starts, isWhere, same.symm, isRoot⟩
      · exact stacked

theorem Stacked.ne_nil {headed : Bool} {stack : Stack}
    (stacked : Stacked headed rootColumn stack) : stack ≠ [] := by
  cases stacked <;> exact List.cons_ne_nil _ _

theorem isContext_openedFrame (kind : TokenKind) :
    ∀ frame ∈ (openedFrame? kind).toList, frame.isContext = false := by
  unfold openedFrame?
  split <;> simp [Frame.isContext]

theorem stacked_cut (token : Token)
    (stacked : Stacked state.startsWithModule rootColumn state.stack) :
    Stacked state.startsWithModule rootColumn (state.cut token).1 := by
  rw [State.cut_eq token stacked.ne_nil]
  exact stacked_before _ _ _ (stacked_openPending _ stacked)

theorem stacked_step (tabWidth : Nat) (token : Token)
    (stacked : Stacked state.startsWithModule rootColumn state.stack) :
    (state.step tabWidth token).1.startsWithModule = state.startsWithModule ∧
      Stacked state.startsWithModule rootColumn (state.step tabWidth token).1.stack := by
  unfold State.step
  split
  · exact ⟨rfl, stacked⟩
  · refine ⟨by simp [State.significant, stacked.ne_nil], ?_⟩
    exact (stacked_cut token stacked).append (isContext_openedFrame token.kind)

/-! ### Runs -/

theorem stacked_steps (tabWidth : Nat) (later : List Token)
    (stacked : Stacked state.startsWithModule rootColumn state.stack) :
    (state.after tabWidth later).startsWithModule = state.startsWithModule ∧
      Stacked state.startsWithModule rootColumn (state.after tabWidth later).stack := by
  induction later generalizing state with
  | nil => exact ⟨rfl, stacked⟩
  | cons token rest ih =>
    obtain ⟨same, stepped⟩ := stacked_step tabWidth token stacked
    rw [← same] at stepped ⊢
    exact ih stepped

variable {tabWidth : Nat}

theorem State.after_blanks {blanks : List Token}
    (blank : ∀ token ∈ blanks, token.kind.isInsignificant = true) :
    (state.after tabWidth blanks).stack = state.stack := by
  induction blanks generalizing state with
  | nil => rfl
  | cons token rest ih =>
    obtain ⟨first, others⟩ := List.forall_mem_cons.mp blank
    rw [State.after_cons, ih others, State.step, if_pos first]
    rfl

theorem stacked_after (tabWidth : Nat) {blanks : List Token} {first : Token}
    (blank : ∀ token ∈ blanks, token.kind.isInsignificant = true)
    (notBlank : first.kind.isInsignificant = false) (later : List Token) :
    (State.after tabWidth {} (blanks ++ first :: later)).startsWithModule =
        decide (first.kind = .keyword .moduleWord) ∧
      Stacked (first.kind = .keyword .moduleWord) (columnBehind tabWidth blanks)
        (State.after tabWidth {} (blanks ++ first :: later)).stack := by
  have empty : (State.after tabWidth {} blanks).stack = [] := State.after_blanks blank
  have starts : ((State.after tabWidth {} blanks).step tabWidth first).1.startsWithModule =
      decide (first.kind = .keyword .moduleWord) := by
    simp [State.step, notBlank, State.significant, empty]
  have stacked : Stacked (first.kind = .keyword .moduleWord) (columnBehind tabWidth blanks)
      ((State.after tabWidth {} blanks).step tabWidth first).1.stack := by
    rw [State.step, if_neg (by simp [notBlank]), State.significant_stack, State.cut, empty]
    refine Stacked.append ?_ (isContext_openedFrame first.kind)
    rw [State.after_column]
    exact .root
  rw [← starts] at stacked ⊢
  rw [State.after_append]
  exact stacked_steps tabWidth later stacked

theorem exists_first {front : List Token}
    (started : ∃ token ∈ front, token.kind.isInsignificant = false) :
    ∃ blanks first later, front = blanks ++ first :: later ∧
      (∀ token ∈ blanks, token.kind.isInsignificant = true) ∧
      first.kind.isInsignificant = false := by
  have found : (front.find? fun token => !token.kind.isInsignificant).isSome = true :=
    List.find?_isSome.mpr (by simpa using started)
  obtain ⟨first, isFirst⟩ := Option.isSome_iff_exists.mp found
  obtain ⟨notBlank, blanks, later, split, blank⟩ := List.find?_eq_some_iff_append.mp isFirst
  exact ⟨blanks, first, later, split, by simpa using blank, by simpa using notBlank⟩

theorem exists_first_of_started {front : List Token}
    (started : (State.after tabWidth {} front).stack ≠ []) :
    ∃ blanks first later, front = blanks ++ first :: later ∧
      (∀ token ∈ blanks, token.kind.isInsignificant = true) ∧
      first.kind.isInsignificant = false := by
  refine exists_first ?_
  by_contra allBlank
  exact started (State.after_blanks (by simpa using allBlank))

theorem exists_stacked_after {front : List Token}
    (started : (State.after tabWidth {} front).stack ≠ []) :
    ∃ headed rootColumn, Stacked headed rootColumn (State.after tabWidth {} front).stack := by
  obtain ⟨blanks, first, later, rfl, blank, notBlank⟩ := exists_first_of_started started
  exact ⟨_, _, (stacked_after tabWidth blank notBlank later).2⟩

end Offside.Layout
