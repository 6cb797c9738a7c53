import Offside.Proofs.BlockBalance
import Offside.Proofs.Landmarks
import Offside.Proofs.Resynchronisation

/-!
# Separators and columns

The columns of the blocks on the stack of the resolver can be read off its
output: a block that is still open starts right in front of its first token,
and the column of that token is the column of the block.  So a separator can
be checked without the stack.  Behind it comes the first token of a line, at
the column of the innermost block that is open there.  If none is open, the
token stands at the column of the whole text, or further to the left and
behind a marker that says so.
-/

namespace Offside.Layout

/-- The columns of the blocks among the frames, innermost first. -/
def blockColumns (frames : Stack) : List Nat :=
  frames.filterMap fun
    | .block _ column => some column
    | _ => none

/--
The blocks that an output leaves open, by the columns of their first tokens,
innermost first.
-/
inductive Opened (tabWidth : Nat) : List Token → List Nat → Prop where
  | none {output : List Token} (nest : Leads 0 0 0 (output.map Token.kind)) :
      Opened tabWidth output []
  | block {output inside : List Token} {start first : Token} {columns : List Nat}
      (outer : Opened tabWidth output columns) (isStart : start.kind = .layoutStart)
      (significant : first.kind.isSignificant = true)
      (nest : Leads 0 0 0 ((first :: inside).map Token.kind)) :
      Opened tabWidth (output ++ start :: first :: inside)
        (columnBehind tabWidth output :: columns)

theorem Leads.lift {floor before after : Nat} {marks : List TokenKind}
    (leads : Leads floor before after marks) (count : Nat) :
    Leads (floor + count) (before + count) (after + count) marks where
  total := by
    have total := leads.total
    omega
  above front isPrefix := by
    have reached := leads.above front isPrefix
    omega

@[simp]
theorem blockColumns_append (above below : Stack) :
    blockColumns (above ++ below) = blockColumns above ++ blockColumns below :=
  List.filterMap_append

theorem blockColumns_of_isContext {frames : Stack}
    (light : ∀ frame ∈ frames, frame.isContext = false) : blockColumns frames = [] := by
  refine List.filterMap_eq_nil_iff.mpr fun frame member => ?_
  have notContext := light frame member
  cases frame with
  | block => cases notContext
  | root | bracket | pendingThen | pendingElse => rfl

variable {column : Nat} {stack : Stack} {output front : List Token}

namespace Opened

variable {tabWidth : Nat} {output : List Token} {columns : List Nat}

theorem append (opened : Opened tabWidth output columns) {more : List Token}
    (nest : Leads 0 0 0 (more.map Token.kind)) : Opened tabWidth (output ++ more) columns := by
  cases opened with
  | none inside =>
    refine .none ?_
    rw [List.map_append]
    exact inside.append nest
  | block outer isStart significant inside =>
    rw [List.append_assoc, List.cons_append, List.cons_append]
    refine .block outer isStart significant ?_
    rw [← List.cons_append, List.map_append]
    exact inside.append nest

theorem insert (opened : Opened tabWidth output columns) {marks : List TokenKind}
    (nest : Leads 0 0 0 marks) (offset : Nat) :
    Opened tabWidth (output ++ insert marks offset) columns :=
  opened.append (by rwa [map_kind_insert])

theorem stop (opened : Opened tabWidth output (column :: columns)) (offset : Nat) :
    Opened tabWidth (output ++ Layout.insert [.layoutEnd] offset) columns := by
  cases opened with
  | block outer isStart significant inside =>
    rw [List.append_assoc]
    refine outer.append ?_
    have starts : Leads 0 0 1 [.layoutStart] := .start (Nat.le_refl 0)
    have stops : Leads 0 1 0 [.layoutEnd] := .stop (Nat.le_refl 0)
    rw [List.cons_append, List.map_cons, List.map_append, isStart]
    exact starts.append (((inside.lift 1).mono (Nat.zero_le _)).append stops)

theorem leavings {above below : Stack} (reports : Bool) (offset : Nat)
    (opened : Opened tabWidth output (blockColumns (above ++ below))) :
    Opened tabWidth (output ++ Layout.insert (leavings reports above) offset)
      (blockColumns below) := by
  induction above generalizing output with
  | nil => simpa [Layout.leavings, Layout.insert] using opened
  | cons frame rest ih =>
    rw [Layout.leavings, List.flatMap_cons, Layout.insert, List.map_append, ← List.append_assoc]
    apply ih
    cases frame with
    | block kind column => exact opened.stop offset
    | bracket =>
      refine opened.insert ?_ offset
      cases reports with
      | false => exact .nil (Nat.le_refl 0)
      | true => exact .other (by rintro ⟨⟩) (by rintro ⟨⟩) (Nat.le_refl 0)
    | root | pendingThen | pendingElse => exact opened.insert (.nil (Nat.le_refl 0)) offset

theorem before (kind : TokenKind) (column : Nat) (applies : Bool) (offset : Nat)
    (opened : Opened tabWidth output (blockColumns stack)) :
    Opened tabWidth (output ++ Layout.insert (before kind column applies stack).2 offset)
      (blockColumns (Layout.before kind column applies stack).1) := by
  have cuts := before_cuts kind column applies stack
  generalize Layout.before kind column applies stack = result at cuts ⊢
  cases cuts with
  | ownRule above below added keepsRoot light =>
    rw [blockColumns_append, blockColumns_of_isContext light]
    exact opened.leavings false offset
  | offsideRule above below keepsRoot isFirst =>
    rw [Layout.insert, List.map_append, ← List.append_assoc]
    exact (opened.leavings true offset).insert (leads_greeting 0 column _ below) offset

theorem blocksNest (opened : Opened tabWidth output []) : BlocksNest (output.map Token.kind) := by
  cases opened with
  | none nest => exact nest.blocksNest

theorem innermost (opened : Opened tabWidth output (column :: columns)) :
    ∃ front start first inside, output = front ++ start :: first :: inside ∧
      start.kind = .layoutStart ∧ first.kind.isSignificant = true ∧
      BlocksNest ((first :: inside).map Token.kind) ∧ column = columnBehind tabWidth front := by
  cases opened with
  | block outer isStart significant nest =>
    exact ⟨_, _, _, _, rfl, isStart, significant, nest.blocksNest, rfl⟩

theorem emptyBlock (opened : Opened tabWidth output columns) (offset : Nat) :
    Opened tabWidth (output ++ Layout.insert [.layoutStart, .layoutEnd] offset) columns := by
  have starts : Leads 0 0 1 [.layoutStart] := .start (Nat.le_refl 0)
  exact opened.insert (starts.append (.stop (Nat.le_refl 0))) offset

theorem token (opened : Opened tabWidth output columns) {token : Token}
    (real : token.kind.isVirtual = false) : Opened tabWidth (output ++ [token]) columns :=
  opened.append (leads_token real 0)

end Opened

variable {tabWidth : Nat} {state : State}

theorem opened_step {token : Token} (real : token.kind.isVirtual = false)
    (column : state.column = columnBehind tabWidth output)
    (opened : Opened tabWidth output (blockColumns state.stack)) :
    Opened tabWidth (output ++ insert (state.step tabWidth token).2 token.span.start ++ [token])
      (blockColumns (state.step tabWidth token).1.stack) := by
  unfold State.step
  split
  · exact (opened.insert (.nil (Nat.le_refl 0)) _).token real
  · next notBlank =>
      have significant : token.kind.isSignificant = true :=
        isSignificant_iff.mpr ⟨by simpa using notBlank, real⟩
      rw [State.significant_inserted, State.significant_stack, blockColumns_append,
        blockColumns_of_isContext (isContext_openedFrame token.kind)]
      by_cases started : state.stack = []
      · rw [started] at opened
        rw [State.cut, started]
        exact (opened.insert (.nil (Nat.le_refl 0)) _).token real
      · rw [State.cut_eq token started]
        rcases openPending_cases state state.column with equal | equal | ⟨block, equal⟩
        · rw [equal]
          exact (opened.before token.kind _ _ _).token real
        · rw [equal, insert, List.map_append, ← List.append_assoc]
          exact ((opened.emptyBlock _).before token.kind _ _ _).token real
        · -- A block that is opened ends at once or has the token as its first.
          obtain ⟨above, below, added, split, light, cut⟩ :=
            before_false token.kind state.column _
          rw [equal, Bool.not_true, Bool.and_false, cut, blockColumns_append,
            blockColumns_of_isContext light]
          cases above with
          | nil =>
            rw [List.nil_append] at split
            have first : Opened tabWidth
                (output ++ Token.virtual .layoutStart token.span.start :: token :: [])
                (columnBehind tabWidth output :: blockColumns state.stack) :=
              .block opened rfl significant (leads_token real 0)
            rw [← column] at first
            rw [← split, List.append_assoc]
            exact first
          | cons frame above =>
            obtain ⟨rfl, rest⟩ := List.cons.inj split
            rw [rest] at opened
            simpa [insert, leavings, Frame.leaving] using
              ((opened.emptyBlock token.span.start).leavings false token.span.start).token real

theorem opened_emitted (real : ∀ token ∈ front, token.kind.isVirtual = false) :
    Opened tabWidth (emitted tabWidth {} front)
      (blockColumns (State.after tabWidth {} front).stack) := by
  induction front using List.reverseRecOn with
  | nil => exact .none (.nil (Nat.le_refl 0))
  | append_singleton front token ih =>
    obtain ⟨earlier, last⟩ := List.forall_mem_append.mp real
    have column : (State.after tabWidth {} front).column =
        columnBehind tabWidth (emitted tabWidth {} front) := by
      rw [State.after_column, columnBehind, textOf_emitted]
    rw [emitted_append, State.after_append]
    simpa [emitted] using opened_step (last token (List.mem_singleton_self token)) column
      (ih earlier)

/-! ### Separators -/

theorem greeting_separates {popped : Bool} (separates : .layoutSep ∈ greeting column popped stack) :
    ∃ frame below marks, stack = frame :: below ∧
      greeting column popped stack = marks ++ [.layoutSep] ∧
      (marks = [] ∧ frame.IsAt column ∨
        marks = [.layoutError .leftOfRoot] ∧ ∃ rootColumn, frame = .root rootColumn ∧
          column < rootColumn) := by
  unfold greeting at separates ⊢
  split at separates
  · next block blockColumn below =>
      split at separates
      · next same =>
          subst same
          rw [if_pos rfl]
          have isAt : (Frame.block block column).IsAt column := .inr ⟨block, rfl⟩
          exact ⟨_, below, [], rfl, rfl, .inl ⟨rfl, isAt⟩⟩
      · cases popped <;> simp at separates
  · next rootColumn below =>
      split at separates
      · next left =>
          rw [if_pos left]
          have isLeft : ∃ other, Frame.root rootColumn = .root other ∧ column < other :=
            ⟨rootColumn, rfl, left⟩
          exact ⟨_, below, [.layoutError .leftOfRoot], rfl, rfl, .inr ⟨rfl, isLeft⟩⟩
      · next notLeft =>
          split at separates
          · next same =>
              subst same
              rw [if_neg notLeft, if_pos rfl]
              have isAt : (Frame.root column).IsAt column := .inl rfl
              exact ⟨_, below, [], rfl, rfl, .inl ⟨rfl, isAt⟩⟩
          · cases popped <;> simp at separates
  · cases separates

theorem layoutSep_not_mem_leavings (reports : Bool) (frames : Stack) :
    .layoutSep ∉ leavings reports frames := by
  intro member
  obtain ⟨frame, -, found⟩ := List.mem_flatMap.mp member
  cases frame <;> cases reports <;> simp [Frame.leaving] at found

/--
Among the marks of a rule, with an empty block before them or without, a
separator is the last, and stands for the innermost frame that is left.
-/
theorem before_separates {kind : TokenKind} {applies : Bool} {empty left right : List TokenKind}
    (offset : Nat) (opened : Opened tabWidth output (blockColumns stack))
    (nest : Leads 0 0 0 empty) (quiet : .layoutSep ∉ empty)
    (marks : empty ++ (before kind column applies stack).2 = left ++ .layoutSep :: right) :
    right = [] ∧ applies = true ∧
      Opened tabWidth (output ++ insert left offset)
        (blockColumns (before kind column applies stack).1) ∧
      ∃ frame below, (before kind column applies stack).1 = frame :: below ∧
        (frame.IsAt column ∨ left.getLast? = some (.layoutError .leftOfRoot) ∧
          ∃ rootColumn, frame = .root rootColumn ∧ column < rootColumn) := by
  have member : .layoutSep ∈ empty ++ (before kind column applies stack).2 := by simp [marks]
  have member := (List.mem_append.mp member).resolve_left quiet
  have cuts := before_cuts kind column applies stack
  generalize before kind column applies stack = result at cuts marks member ⊢
  cases cuts with
  | ownRule above below added keepsRoot light =>
    exact absurd member (layoutSep_not_mem_leavings false above)
  | offsideRule above below keepsRoot isFirst =>
    obtain ⟨frame, rest, shown, rfl, isGreeting, place⟩ := greeting_separates
      ((List.mem_append.mp member).resolve_left (layoutSep_not_mem_leavings true above))
    have fresh : .layoutSep ∉ empty ++ leavings true above ++ shown := by
      rw [List.mem_append, List.mem_append, not_or, not_or]
      refine ⟨⟨quiet, layoutSep_not_mem_leavings true above⟩, ?_⟩
      rcases place with ⟨rfl, -⟩ | ⟨rfl, -⟩ <;> simp
    rw [isGreeting, ← List.append_assoc, ← List.append_assoc,
      List.append_cons_inj_of_notMem fresh List.not_mem_nil] at marks
    obtain ⟨rfl, -, rfl⟩ := marks
    refine ⟨rfl, isFirst, ?_, frame, rest, rfl, ?_⟩
    · have onward := (opened.insert nest offset).leavings true offset
      rw [insert, List.map_append, List.map_append, ← List.append_assoc, ← List.append_assoc]
      refine onward.insert ?_ offset
      rcases place with ⟨rfl, -⟩ | ⟨rfl, -⟩
      · exact .nil (Nat.le_refl 0)
      · exact .other (by rintro ⟨⟩) (by rintro ⟨⟩) (Nat.le_refl 0)
    · exact place.imp And.right (And.imp_left fun isLast => by simp [isLast])

/--
A separator is the last mark in front of its token, the first on a line, and
stands for the innermost frame that the token leaves open.
-/
theorem cut_separates {token : Token} {left right : List TokenKind} (offset : Nat)
    (opened : Opened tabWidth output (blockColumns state.stack))
    (marks : (state.cut token).2 = left ++ .layoutSep :: right) :
    right = [] ∧ state.stack ≠ [] ∧ state.lineStart = true ∧
      Opened tabWidth (output ++ insert left offset) (blockColumns (state.cut token).1) ∧
      ∃ frame below, (state.cut token).1 = frame :: below ∧
        (frame.IsAt state.column ∨ left.getLast? = some (.layoutError .leftOfRoot) ∧
          ∃ rootColumn, frame = .root rootColumn ∧ state.column < rootColumn) := by
  have started : state.stack ≠ [] := by
    intro isEmpty
    rw [State.cut, isEmpty] at marks
    simp at marks
  rw [State.cut_eq token started] at marks ⊢
  rcases openPending_cases state state.column with equal | equal | ⟨block, equal⟩
  · rw [equal, Bool.not_false, Bool.and_true] at marks ⊢
    obtain ⟨isLast, isFirst, place⟩ := before_separates offset opened (.nil (Nat.le_refl 0))
      List.not_mem_nil marks
    exact ⟨isLast, started, isFirst, place⟩
  · rw [equal, Bool.not_false, Bool.and_true] at marks ⊢
    have starts : Leads 0 0 1 [.layoutStart] := .start (Nat.le_refl 0)
    obtain ⟨isLast, isFirst, place⟩ := before_separates offset opened
      (starts.append (.stop (Nat.le_refl 0))) (by simp) marks
    exact ⟨isLast, started, isFirst, place⟩
  · obtain ⟨above, below, added, -, -, cut⟩ :=
      before_false token.kind state.column _
    rw [equal, Bool.not_true, Bool.and_false, cut] at marks
    have member : .layoutSep ∈ left ++ .layoutSep :: right := by simp
    rw [← marks] at member
    rcases List.mem_append.mp member with isStart | isEnd
    · cases List.mem_singleton.mp isStart
    · exact absurd isEnd (layoutSep_not_mem_leavings false above)

theorem exists_step_of_layoutSep {all tail back : List Token} {mark : Token}
    (real : ∀ token ∈ all, token.kind.isVirtual = false)
    (quiet : ∀ token ∈ tail, token.kind ≠ .layoutSep) (isSep : mark.kind = .layoutSep)
    (split : emitted tabWidth state all ++ tail = front ++ mark :: back) :
    ∃ earlier token later left right, all = earlier ++ token :: later ∧
      ((state.after tabWidth earlier).step tabWidth token).2 = left ++ .layoutSep :: right ∧
      front = emitted tabWidth state earlier ++ insert left token.span.start ∧
      ∃ rest, back = insert right token.span.start ++ token :: rest := by
  induction all generalizing state front with
  | nil => exact absurd isSep (quiet mark (by rw [← List.nil_append tail]; exact split ▸ by simp))
  | cons token rest ih =>
    obtain ⟨isReal, others⟩ := List.forall_mem_cons.mp real
    rw [emitted, List.append_assoc, List.cons_append] at split
    rcases append_eq_append_cons split with ⟨gap, isInsert, rfl⟩ | ⟨gap, rfl, later⟩
    · obtain ⟨left, marks, isMarks, rfl, isMap⟩ := List.map_eq_append_iff.mp isInsert
      obtain ⟨kind, right, rfl, rfl, rfl⟩ := List.map_eq_cons_iff.mp isMap
      refine ⟨[], token, rest, left, right, rfl, ?_, rfl, _, rfl⟩
      rw [State.after_nil, isMarks]
      exact isSep ▸ rfl
    · cases gap with
      | nil =>
        cases later
        exact absurd isSep (ne_of_real isReal rfl)
      | cons next gap =>
        rw [List.cons_append, List.cons.injEq] at later
        obtain ⟨rfl, later⟩ := later
        obtain ⟨earlier, found, after, left, right, rfl, marks, rfl, rest, rfl⟩ := ih others later
        exact ⟨token :: earlier, found, after, left, right, rfl, marks,
          by simp [emitted], rest, rfl⟩

/-! ### Whole texts -/

theorem layoutSep_not_mem_finish (state : State) : .layoutSep ∉ state.finish := by
  rw [State.finish, closings_eq_leavings, List.mem_append, not_or]
  refine ⟨?_, layoutSep_not_mem_leavings false state.stack⟩
  split <;> simp

/--
A separator in the output for a text: the tokens in front of the one that it
separates, and what the resolver knows there.
-/
theorem tokens_separates {source : String} {back : List Token} {mark : Token}
    (isSep : mark.kind = .layoutSep) (split : tokens tabWidth source = front ++ mark :: back) :
    ∃ earlier token rest left, back = token :: rest ∧ token.kind.isSignificant = true ∧
      (∀ token ∈ earlier, token.kind.isVirtual = false) ∧
      ((State.behind tabWidth earlier).cut token).2 = left ++ [.layoutSep] ∧
      front = emitted (max tabWidth 1) {} earlier ++ insert left token.span.start := by
  obtain ⟨all, stop, -, real, output⟩ := tokens_eq tabWidth source
  have quiet : ∀ token ∈ insert (State.after (max tabWidth 1) {} all).finish stop ++
      [Token.virtual .eof stop], token.kind ≠ .layoutSep := by
    refine List.forall_mem_append.mpr ⟨fun token member same => ?_, by simp [Token.virtual]⟩
    obtain ⟨kind, owed, rfl⟩ := List.mem_map.mp member
    rw [show kind = .layoutSep from same] at owed
    exact layoutSep_not_mem_finish _ owed
  obtain ⟨earlier, token, later, left, right, rfl, marks, rfl, rest, rfl⟩ :=
    exists_step_of_layoutSep real quiet isSep (output.symm.trans split)
  obtain ⟨realEarlier, realLater⟩ := List.forall_mem_append.mp real
  have isReal := realLater token List.mem_cons_self
  have notBlank : ¬ token.kind.isInsignificant = true := by
    intro blank
    rw [State.step, if_pos blank] at marks
    simp at marks
  rw [State.step, if_neg notBlank] at marks
  obtain ⟨rfl, -⟩ := cut_separates 0 (opened_emitted realEarlier) marks
  exact ⟨earlier, token, rest, left, rfl,
    isSignificant_iff.mpr ⟨by simpa using notBlank, isReal⟩, realEarlier, marks, rfl⟩

theorem root_of_cut {earlier rest : List Token} {token : Token} {rootColumn : Nat}
    {frames : Stack} {source : String} (started : (State.behind tabWidth earlier).stack ≠ [])
    (isRoot : ((State.behind tabWidth earlier).cut token).1 = .root rootColumn :: frames)
    (split : tokens tabWidth source = emitted (max tabWidth 1) {} earlier ++ rest)
    (real : ∀ token ∈ earlier, token.kind.isVirtual = false) :
    frames = [] ∧ ∃ blanks first later, tokens tabWidth source = blanks ++ first :: later ∧
      (∀ token ∈ blanks, token.kind.isInsignificant = true) ∧ first.kind.isSignificant = true ∧
      columnBehind (max tabWidth 1) blanks = rootColumn := by
  obtain ⟨blanks, first, later, rfl, blank, notBlank⟩ := exists_first_of_started started
  obtain ⟨headed, stacked⟩ := stacked_after _ blank notBlank later
  rw [← headed] at stacked
  have cut := stacked_cut token stacked
  rw [← State.behind, isRoot] at cut
  have alone : frames = [] ∧ columnBehind (max tabWidth 1) blanks = rootColumn := by
    cases cut with
    | root => exact ⟨rfl, rfl⟩
    | light notContext => cases notContext
  have empty : (State.after (max tabWidth 1) {} blanks).stack = [] := State.after_blanks blank
  have leads : ∃ more, tokens tabWidth source = blanks ++ first :: more := by
    rw [split, emitted_append, emitted_gap blanks blank, emitted, State.step,
      if_neg (by simp [notBlank]), State.significant_inserted, State.cut, empty]
    exact ⟨_, List.append_assoc _ _ _⟩
  obtain ⟨more, output⟩ := leads
  exact ⟨alone.1, blanks, first, more, output, blank,
    isSignificant_iff.mpr ⟨notBlank, real first (by simp)⟩, alone.2⟩

/--
Every separator in the output for a text comes right in front of a significant
token, the first on its line.  Its column is that of the token behind the
start of the innermost block that the output leaves open there.  If no block
is open, it is the column of the first significant token of the text, or
further to the left, and then a marker of that comes right before the
separator.  There is a significant token between any two separators.
-/
theorem separators_aligned (tabWidth : Nat) (source : String) {front back : List Token}
    {mark : Token} (split : tokens tabWidth source = front ++ mark :: back)
    (isSep : mark.kind = .layoutSep) :
    (∃ token rest, back = token :: rest ∧ token.kind.isSignificant = true) ∧
      opensLine (front.filter fun token => !isMark token.kind) = true ∧
      ((∃ output start first inside, front = output ++ start :: first :: inside ∧
          start.kind = .layoutStart ∧ first.kind.isSignificant = true ∧
          BlocksNest ((first :: inside).map Token.kind) ∧
          columnBehind (max tabWidth 1) front = columnBehind (max tabWidth 1) output) ∨
        BlocksNest (front.map Token.kind) ∧
          ∃ blanks first later, tokens tabWidth source = blanks ++ first :: later ∧
            (∀ token ∈ blanks, token.kind.isInsignificant = true) ∧
            first.kind.isSignificant = true ∧
            (columnBehind (max tabWidth 1) front = columnBehind (max tabWidth 1) blanks ∨
              columnBehind (max tabWidth 1) front < columnBehind (max tabWidth 1) blanks ∧
                front.getLast?.map Token.kind = some (.layoutError .leftOfRoot))) ∧
      ∀ earlier other between, front = earlier ++ other :: between → other.kind = .layoutSep →
        ∃ token ∈ between, token.kind.isSignificant = true := by
  obtain ⟨earlier, token, rest, left, rfl, significant, real, marks, isFront⟩ :=
    tokens_separates isSep split
  obtain ⟨-, started, lineStart, opened, frame, below, isTop, place⟩ :=
    cut_separates token.span.start (opened_emitted real) marks
  rw [← isFront] at opened
  have isMarks : ∀ mark ∈ left, isMark mark = true := fun mark member =>
    isMark_cut _ token mark (marks ▸ List.mem_append_left _ member)
  have passed : (front.filter fun token => !isMark token.kind) = earlier := by
    rw [isFront, List.filter_append, filter_emitted _ _ earlier real, filter_insert _ isMarks,
      List.append_nil]
  have column : (State.after (max tabWidth 1) {} earlier).column =
      columnBehind (max tabWidth 1) front := by
    rw [isFront, columnBehind, Token.textOf_append, textOf_insert, textOf_emitted,
      String.append_empty]
    exact State.after_column earlier
  rw [isTop] at opened
  rw [column] at place
  refine ⟨⟨token, rest, rfl, significant⟩, ?_, ?_, ?_⟩
  · rw [passed, ← State.after_lineStart]
    exact lineStart
  · have atRoot {rootColumn : Nat} (isRoot : frame = .root rootColumn) :=
      root_of_cut started (isRoot ▸ isTop)
        (split.trans (by rw [isFront, List.append_assoc])) real
    rcases place with (rfl | ⟨kind, rfl⟩) | ⟨isLast, rootColumn, rfl, further⟩
    · obtain ⟨rfl, blanks, first, later, output, blank, isFirst, isColumn⟩ := atRoot rfl
      exact .inr ⟨opened.blocksNest, blanks, first, later, output, blank, isFirst,
        .inl isColumn.symm⟩
    · exact .inl opened.innermost
    · obtain ⟨rfl, blanks, first, later, output, blank, isFirst, rfl⟩ := atRoot rfl
      refine .inr ⟨opened.blocksNest, blanks, first, later, output, blank, isFirst,
        .inr ⟨further, ?_⟩⟩
      rw [isFront, insert, List.getLast?_append, List.getLast?_map, isLast]
      rfl
  · intro before other between isSplit isOther
    rw [isSplit, List.append_assoc, List.cons_append] at split
    obtain ⟨_, next, others, _, isNext, nextSignificant, -⟩ := tokens_separates isOther split
    cases between with
    | nil =>
      cases isNext
      rw [isSep] at nextSignificant
      cases nextSignificant
    | cons first between =>
      cases isNext
      exact ⟨next, List.mem_cons_self, nextSignificant⟩

/-- A line that ends a block and goes on with the block around it. -/
theorem separators_aligned_behind_block :
    let output := tokens 8 "x = do\n  a do\n    b\n  c"
    let front := output.take 18
    output = front ++ Token.virtual .layoutSep 22 :: output.drop 19 ∧
      opensLine (front.filter fun token => !isMark token.kind) = true ∧
      ∃ before start first inside, front = before ++ start :: first :: inside ∧
        start.kind = .layoutStart ∧ BlocksNest ((first :: inside).map Token.kind) ∧
        columnBehind 8 front = columnBehind 8 before := by
  intro output front
  have split : output = front ++ Token.virtual .layoutSep 22 :: output.drop 19 := by
    decide +kernel
  obtain ⟨-, isFirst, place, -⟩ := separators_aligned 8 "x = do\n  a do\n    b\n  c" split rfl
  rcases place with ⟨before, start, first, inside, opens, isStart, -, nest, column⟩ | ⟨nest, -⟩
  · exact ⟨split, isFirst, before, start, first, inside, opens, isStart, nest, column⟩
  · exact absurd nest.all (by decide +kernel)

end Offside.Layout
