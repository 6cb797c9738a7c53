import Offside.Proofs.LayoutStack

/-!
# Resuming at the top level

The first token of a line that stands at the column of the top level should
start a new item there, whatever the lines above have left open.  Blocks and
conditionals never stand in the way.  An open bracket does, unless the context
right around it is a block to the right of the token or the root at its
column; then the bracket is given up.  A bracket inside a bracket, a bracket
directly in the body of a module and a conditional directly in a bracket
therefore hide the line from the top level.
-/

namespace Offside.Layout

/--
The frame on top of `below` is left behind by a line that starts at the column
with a token other than a closing bracket.
-/
def Frame.YieldsTo (column : Nat) (below : Stack) : Frame → Prop
  | .root _ => False
  | .block _ blockColumn => column < blockColumn
  | .bracket => ∃ outer, enclosing? below = some outer ∧
      (column < outer.column ∨ outer.isRoot = true ∧ column = outer.column)
  | .pendingThen => ∃ outer, enclosing? below = some outer ∧
      column ≤ outer.column
  | .pendingElse => ∃ outer, enclosing? below = some outer ∧
      column ≤ outer.column

/--
Every frame above some context at the column is left behind by a line that
starts there; the root also takes lines to its left.
-/
inductive Resumes (column : Nat) : Stack → Prop where
  | atRoot {rootColumn : Nat} {below : Stack} (reached : column ≤ rootColumn) :
      Resumes column (.root rootColumn :: below)
  | atBlock {kind : Block} {below : Stack} :
      Resumes column (.block kind column :: below)
  | past {frame : Frame} {below : Stack} (yields : frame.YieldsTo column below)
      (resumes : Resumes column below) :
      Resumes column (frame :: below)

variable {column rootColumn : Nat} {headed : Bool} {state : State} {token : Token}

theorem resumes_cons_iff {frame : Frame} {below : Stack} (noContext : frame.isContext = false) :
    Resumes column (frame :: below) ↔
      frame.YieldsTo column below ∧ Resumes column below := by
  constructor
  · intro resumes
    cases resumes with
    | atRoot reached => simp [Frame.isContext] at noContext
    | atBlock => simp [Frame.isContext] at noContext
    | past yields resumes => exact ⟨yields, resumes⟩
  · rintro ⟨yields, resumes⟩
    exact .past yields resumes

theorem getLast_cons_separator_iff {marks : List TokenKind} {mark : TokenKind}
    (other : mark ≠ .layoutSep) :
    (mark :: marks).getLast? = some .layoutSep ↔
      marks.getLast? = some .layoutSep := by
  cases marks with
  | nil => simp [other]
  | cons next rest => rw [List.getLast?_cons_cons]

/--
The offside rule puts a separator right in front of the first token of a line
exactly when every frame above some context at its column is left behind.
-/
theorem offside_separates_iff (kind : TokenKind) (column : Nat)
    (popped : Bool) (stack : Stack) (notClosing : kind.isClosing = false) :
    (offside kind column popped stack).2.getLast? = some .layoutSep ↔
      Resumes column stack := by
  fun_induction offside kind column popped stack with
  | case1 =>
    exact ⟨by simp, fun resumes => by cases resumes⟩
  | case2 popped rest outer enclosed left ih | case5 popped rest outer enclosed left ih =>
    rw [resumes_cons_iff rfl, ih]
    simp [Frame.YieldsTo, enclosed, left]
  | case8 popped rest outer enclosed left stack inserted result ih =>
    rw [result] at ih
    rw [resumes_cons_iff rfl, getLast_cons_separator_iff (by decide), ih]
    simpa [notClosing, Frame.YieldsTo, enclosed] using fun _ => left
  | case3 popped rest outer enclosed right | case6 popped rest outer enclosed right =>
    rw [resumes_cons_iff rfl]
    simp [Frame.YieldsTo, enclosed, right]
  | case9 popped rest outer enclosed right =>
    simp only [notClosing, Bool.not_false, Bool.and_true, Bool.or_eq_true,
      Bool.and_eq_true, decide_eq_true_eq] at right
    rw [resumes_cons_iff rfl]
    simp [Frame.YieldsTo, enclosed, right]
  | case4 popped rest enclosed | case7 popped rest enclosed | case10 popped rest enclosed =>
    rw [resumes_cons_iff rfl]
    simp [Frame.YieldsTo, enclosed]
  | case11 popped block rest =>
    exact ⟨fun _ => .atBlock, by simp⟩
  | case12 popped block blockColumn rest _ left stack inserted result ih =>
    rw [result] at ih
    refine (getLast_cons_separator_iff (by decide)).trans ?_
    constructor
    · intro separated
      exact .past left (ih.mp separated)
    · intro resumes
      cases resumes with
      | atBlock => exact absurd left (Nat.lt_irrefl _)
      | past yields resumes => exact ih.mpr resumes
  | case13 popped block blockColumn rest different right =>
    constructor
    · cases popped <;> simp
    · intro resumes
      cases resumes with
      | atBlock => exact absurd rfl different
      | past yields resumes => exact absurd yields right
  | case14 popped rootColumn rest =>
    constructor
    · intro separated
      apply Resumes.atRoot
      by_cases right : rootColumn < column
      · have notLeft : ¬ column < rootColumn := Nat.lt_asymm right
        have notAt : column ≠ rootColumn := Nat.ne_of_gt right
        cases popped <;> simp [notLeft, notAt] at separated
      · exact Nat.le_of_not_lt right
    · intro resumes
      cases resumes with
      | atRoot reached =>
        rcases Nat.lt_or_eq_of_le reached with left | same
        · simp [left]
        · simp [same]
      | past yields resumes => exact yields.elim

/-! ### Contexts without open brackets -/

def Frame.IsAt (column : Nat) (frame : Frame) : Prop :=
  frame = .root column ∨ ∃ kind, frame = .block kind column

/--
Above a context at the column, with no bracket open, every context stands at
the column or to its right, and a line that starts at the column leaves it.
-/
theorem resumes_above {context : Frame} {above below : Stack}
    (stacked : Stacked headed rootColumn (above ++ context :: below))
    (placed : context.IsAt column) (noBracket : .bracket ∉ above) :
    (∃ outer, enclosing? (above ++ context :: below) = some outer ∧
      column ≤ outer.column) ∧
      Resumes column (above ++ context :: below) := by
  induction above with
  | nil =>
    rcases placed with rfl | ⟨kind, rfl⟩
    · exact ⟨⟨_, rfl, Nat.le_refl column⟩, .atRoot (Nat.le_refl column)⟩
    · exact ⟨⟨_, rfl, Nat.le_refl column⟩, .atBlock⟩
  | cons frame above ih =>
    have noBracketAbove : Frame.bracket ∉ above :=
      fun member => noBracket (List.mem_cons_of_mem _ member)
    cases frame with
    | root rootColumn =>
      cases above <;> cases stacked <;> contradiction
    | bracket => exact absurd (List.mem_cons_self ..) noBracket
    | pendingThen | pendingElse =>
      obtain ⟨around, resumes⟩ := ih (stacked.tail rfl) noBracketAbove
      exact ⟨around, .past around resumes⟩
    | block kind blockColumn =>
      obtain ⟨⟨outer, enclosed, left⟩, resumes⟩ := ih (stacked.tail rfl) noBracketAbove
      have reached : column ≤ blockColumn := Nat.le_trans left (stacked.le_column enclosed)
      refine ⟨⟨_, rfl, reached⟩, ?_⟩
      rcases Nat.lt_or_eq_of_le reached with inside | rfl
      · exact .past inside resumes
      · exact .atBlock

/-! ### The top level -/

/--
The column is that of a context at the top level: of the root, or of the block
that stands right on it in a text that starts with `module`.
-/
def State.IsTopLevel (state : State) (column : Nat) : Prop :=
  (∃ above, state.stack = above ++ [.root column]) ∨
    state.startsWithModule = true ∧ ∃ above rootColumn,
      state.stack =
        above ++ [.block .whereBlock column, .root rootColumn]

/-- The next significant token opens the body of the module. -/
def State.OpensBody (state : State) : Prop :=
  state.pending = some .whereBlock ∧ state.startsWithModule = true ∧
    state.stack.length = 1

theorem State.IsTopLevel.context (top : state.IsTopLevel column) :
    ∃ above context below, state.stack = above ++ context :: below ∧
      context.IsAt column := by
  rcases top with ⟨above, equal⟩ | ⟨-, above, rootColumn, equal⟩
  · exact ⟨above, _, [], equal, .inl rfl⟩
  · exact ⟨above, _, _, equal, .inr ⟨_, rfl⟩⟩

theorem State.IsTopLevel.resumes (top : state.IsTopLevel column)
    (stacked : Stacked headed rootColumn state.stack) (noBracket : .bracket ∉ state.stack) :
    Resumes column state.stack := by
  obtain ⟨above, context, below, equal, placed⟩ := top.context
  rw [equal] at stacked noBracket ⊢
  exact (resumes_above stacked placed
    fun member => noBracket (List.mem_append_left _ member)).2

/--
Where no bracket is open, a line at the top level opens no block other than
the body of the module.
-/
theorem State.IsTopLevel.opens_nothing (top : state.IsTopLevel column)
    (stacked : Stacked headed rootColumn state.stack) (noBracket : .bracket ∉ state.stack)
    (notBody : ¬ state.OpensBody) : (openPending state column).2.2 = false := by
  obtain ⟨above, context, below, equal, placed⟩ := top.context
  have around := (resumes_above (equal ▸ stacked) placed
    fun member => noBracket (equal ▸ List.mem_append_left _ member)).1
  rw [← equal] at around
  obtain ⟨outer, enclosed, left⟩ := around
  unfold openPending
  split
  · rfl
  · next block pending =>
      have stays : canOpen state block column = false := by
        rw [Bool.eq_false_iff]
        intro opens
        simp only [canOpen, enclosed, Bool.or_eq_true, Bool.and_eq_true, decide_eq_true_eq] at opens
        rcases opens with inside | ⟨⟨⟨⟨-, isWhere⟩, starts⟩, alone⟩, -⟩
        · exact absurd inside (Nat.not_lt_of_le left)
        · exact notBody ⟨isWhere ▸ pending, starts, alone⟩
      rw [stays]
      rfl

/-! ### What stands in front of a token -/

/-- The kinds of tokens for which only the offside rule counts. -/
def isOrdinary : TokenKind → Bool
  | .closing _ => false
  | .comma => false
  | .keyword .inWord => false
  | .keyword .thenWord => false
  | .keyword .elseWord => false
  | .keyword .whereWord => false
  | _ => true

theorem before_ordinary {kind : TokenKind} (ordinary : isOrdinary kind = true)
    (column : Nat) (applies : Bool) (stack : Stack) :
    before kind column applies stack =
      if applies then offside kind column false stack else (stack, []) := by
  unfold before
  dsimp only
  split
  case h_7 => rfl
  all_goals simp [isOrdinary] at ordinary

theorem isClosing_of_isOrdinary {kind : TokenKind}
    (ordinary : isOrdinary kind = true) : kind.isClosing = false := by
  cases kind with
  | closing bracket => simp [isOrdinary] at ordinary
  | _ => rfl

theorem getLast_emitted (tabWidth : Nat) (state : State) (front : List Token) :
    (emitted tabWidth state front).getLast? = front.getLast? := by
  induction front generalizing state with
  | nil => rfl
  | cons token rest ih =>
    rw [emitted, List.getLast?_append, List.getLast?_cons, ih, List.getLast?_cons, Option.some_or]

theorem getLast_emitted_insert_iff (tabWidth : Nat) (state : State) {front : List Token}
    (real : ∀ token ∈ front, token.kind.isVirtual = false) (marks : List TokenKind)
    (offset : Nat) :
    (emitted tabWidth state front ++ insert marks offset).getLast?.map Token.kind =
        some .layoutSep ↔
      marks.getLast? = some .layoutSep := by
  rw [List.getLast?_append, getLast_emitted, insert, List.getLast?_map]
  cases marks.getLast? with
  | some mark => simp
  | none =>
    simp only [Option.map_none, Option.none_or, Option.map_eq_some_iff, reduceCtorEq, iff_false]
    rintro ⟨earlier, found, isSeparator⟩
    exact ne_of_real (real earlier (List.mem_of_getLast? found)) rfl isSeparator

/--
In front of the first token of a line the resolver puts a separator last
exactly when the token opens no block and leaves every frame above some
context at its column.
-/
theorem cut_separates_iff (ordinary : isOrdinary token.kind = true)
    (first : state.lineStart = true) (started : state.stack ≠ []) :
    (state.cut token).2.getLast? = some .layoutSep ↔
      (openPending state state.column).2.2 = false ∧ Resumes state.column state.stack := by
  rw [State.cut_eq token started, before_ordinary ordinary, first, Bool.true_and,
    List.getLast?_append]
  have separates := offside_separates_iff token.kind state.column false
    state.stack (isClosing_of_isOrdinary ordinary)
  unfold openPending
  split
  · simpa using separates
  · split
    · simp
    · simp only [Bool.not_false, if_true]
      rw [← separates]
      cases (offside token.kind state.column false state.stack).2.getLast? <;>
        simp

/-- The state of the resolver behind a stretch of tokens from the start of a text. -/
def State.behind (tabWidth : Nat) (front : List Token) : State :=
  State.after (max tabWidth 1) {} front

@[simp]
theorem State.behind_column (tabWidth : Nat) (front : List Token) :
    (State.behind tabWidth front).column = columnBehind (max tabWidth 1) front :=
  State.after_column front

theorem tokens_split (tabWidth : Nat) {source : String} {front rest : List Token}
    (split : Token.scan source = front ++ token :: rest)
    (significant : token.kind.isSignificant = true) :
    ∃ remainder, tokens tabWidth source =
      emitted (max tabWidth 1) {} front ++
        insert ((State.behind tabWidth front).cut token).2 token.span.start ++
          token :: remainder := by
  obtain ⟨notBlank, real⟩ := isSignificant_iff.mp significant
  rw [tokens, resolve, split, resolveFrom_append front _ (real_of_scan_split split), resolveFrom,
    if_neg (by simp [notBlank]), if_neg (ne_of_real real rfl), ← List.append_assoc]
  exact ⟨_, rfl⟩

/--
A significant token that is the first on its line, stands at the column of the
top level without opening it, and is subject to the offside rule alone, comes
right behind a separator exactly when it opens no block and every frame above
some context at its column yields to it.  Where no bracket is open, it always
does.
-/
theorem top_level_separator_iff (tabWidth : Nat) (source : String)
    (front rest : List Token) (token : Token) (split : Token.scan source = front ++ token :: rest)
    (significant : token.kind.isSignificant = true) (ordinary : isOrdinary token.kind = true)
    (first : opensLine front = true) (top : (State.behind tabWidth front).IsTopLevel
      (columnBehind (max tabWidth 1) front))
    (notBody : ¬ (State.behind tabWidth front).OpensBody) :
    ∃ output remainder,
      tokens tabWidth source = output ++ token :: remainder ∧
      output.filter (fun earlier => !isMark earlier.kind) = front ∧
      (output.getLast?.map Token.kind = some .layoutSep ↔
        (openPending (State.behind tabWidth front)
            (columnBehind (max tabWidth 1) front)).2.2 = false ∧
          Resumes (columnBehind (max tabWidth 1) front)
            (State.behind tabWidth front).stack) ∧
      (.bracket ∉ (State.behind tabWidth front).stack →
        output.getLast?.map Token.kind = some .layoutSep) := by
  obtain ⟨remainder, output⟩ := tokens_split tabWidth split significant
  have real := real_of_scan_split split
  have started : (State.behind tabWidth front).stack ≠ [] := by
    obtain ⟨above, context, below, equal, -⟩ := top.context
    simp [equal]
  obtain ⟨headed, rootColumn, stacked⟩ := exists_stacked_after started
  have exactly := (getLast_emitted_insert_iff (max tabWidth 1) {} real _ token.span.start).trans
    (cut_separates_iff ordinary ((State.after_lineStart front).trans first) started)
  rw [← State.behind, State.behind_column] at exactly
  refine ⟨_, remainder, output, ?_, exactly, fun noBracket => ?_⟩
  · rw [List.filter_append, filter_insert _ (isMark_cut _ token), List.append_nil,
      filter_emitted _ _ front real]
  · exact exactly.mpr
      ⟨top.opens_nothing stacked noBracket notBody, top.resumes stacked noBracket⟩

/-- A bracket in a condition in a block is left behind together with them. -/
theorem separator_past_open_condition :
    ∃ output remainder,
      tokens 8 "x = do\n  if (a\ny = 1" =
        output ++ ⟨.lowerName, ⟨15, 16⟩, "y"⟩ :: remainder ∧
      output.getLast?.map Token.kind = some .layoutSep := by
  have stack : (State.behind 8
      ((Token.scan "x = do\n  if (a\ny = 1").take 12)).stack =
        [.bracket, .pendingThen, .block .doBlock 2, .root 0] := by
    decide +kernel
  have column : columnBehind 8
      ((Token.scan "x = do\n  if (a\ny = 1").take 12) = 0 := by
    decide +kernel
  have resumes : Resumes 0
      [.bracket, .pendingThen, .block .doBlock 2, .root 0] :=
    .past ⟨_, rfl, .inl (by decide)⟩
      (.past ⟨_, rfl, by decide⟩
        (.past (by decide : 0 < 2) (.atRoot (Nat.le_refl 0))))
  obtain ⟨output, remainder, equal, -, exactly, -⟩ :=
    top_level_separator_iff 8 "x = do\n  if (a\ny = 1"
      ((Token.scan "x = do\n  if (a\ny = 1").take 12)
      ((Token.scan "x = do\n  if (a\ny = 1").drop 13)
      ⟨.lowerName, ⟨15, 16⟩, "y"⟩ (by decide +kernel) (by decide) (by decide)
      (by decide +kernel)
      (.inl ⟨[.bracket, .pendingThen, .block .doBlock 2],
        stack.trans (by rw [show max 8 1 = 8 from rfl, column]; rfl)⟩)
      (fun opens => by
        have alone := opens.2.2
        rw [stack] at alone
        exact absurd alone (by decide))
  refine ⟨output, remainder, equal, exactly.mpr ⟨by decide +kernel, ?_⟩⟩
  rw [stack, show max 8 1 = 8 from rfl, column]
  exact resumes

/--
Two brackets left open, or one directly in the body of a module, hide the next
line from the top level: nothing separates it from the line above.
-/
theorem no_separator_past_open_brackets :
    (∀ token ∈ tokens 8 "x = ((\ny = 1", token.kind ≠ .layoutSep) ∧
      ∀ token ∈ tokens 8 "module M where\nx = (1\ny = 1",
        token.kind ≠ .layoutSep := by
  constructor <;> decide +kernel

end Offside.Layout
