import Offside.Proofs.Resynchronisation

/-!
# Dedents that leave no mark

The first token of a line that ends blocks should land on the column of a
context that stays open, or else be marked as misaligned.  The offside rule
marks it when it has come to a context.  An open conditional to whose right
the token stands also stops it, and there it looks at no column: the blocks
inside the conditional are ended and nothing else is put in front of the
token, unless a bracket was given up on the way.
-/

namespace Offside.Layout

/-- The token falls under a rule of its own, given what is open. -/
def hasOwnRule (stack : Stack) : TokenKind → Bool
  | .closing _ => (splitAtBracket? stack).isSome
  | .comma => (splitAtBracket? stack).isSome
  | .keyword .inWord => (splitAfter? Frame.isBindingBlock stack).isSome
  | .keyword .thenWord => (splitAfter? (· = .pendingThen) stack).isSome
  | .keyword .elseWord => (splitAfter? (· = .pendingElse) stack).isSome
  | .keyword .whereWord => true
  | _ => false

/-- What says more than that a block ends: a separator or a fault. -/
def isNotice : TokenKind → Bool
  | .layoutSep => true
  | .layoutError _ => true
  | _ => false

variable {stack : Stack} {column : Nat}

theorem before_of_not_hasOwnRule {kind : TokenKind} (ordinary : hasOwnRule stack kind = false)
    (column : Nat) : before kind column true stack = offside kind column false stack := by
  unfold before
  dsimp only
  split
  case h_6 => cases ordinary
  case h_7 => rfl
  all_goals
    split
    · next found =>
        rw [hasOwnRule, found] at ordinary
        cases ordinary
    · rfl

theorem isNotice_of_mem_greeting {popped : Bool} :
    ∀ mark ∈ greeting column popped stack, isNotice mark = true := by
  rcases greeting_cases column popped stack with equal | equal | equal | equal <;>
    simp [equal, isNotice]

theorem isNotice_leavings_iff (above : Stack) :
    (∀ mark ∈ leavings true above, isNotice mark = false) ↔ .bracket ∉ above := by
  constructor
  · intro silent member
    cases silent _ (List.mem_flatMap.mpr ⟨_, member, List.mem_singleton_self _⟩)
  · intro noBracket mark member
    obtain ⟨frame, isAbove, found⟩ := List.mem_flatMap.mp member
    cases frame with
    | block => rw [List.mem_singleton.mp found]; rfl
    | bracket => exact absurd isAbove noBracket
    | root | pendingThen | pendingElse => cases found

theorem any_isBlock_of_mem_leavings {above : Stack}
    (member : .layoutEnd ∈ leavings true above) : above.any Frame.isBlock = true := by
  obtain ⟨frame, isAbove, found⟩ := List.mem_flatMap.mp member
  refine List.any_eq_true.mpr ⟨frame, isAbove, ?_⟩
  cases frame with
  | block => rfl
  | bracket => cases List.mem_singleton.mp found
  | root | pendingThen | pendingElse => cases found

/-- Behind the end of a block, only an open conditional lets a token pass without a word. -/
theorem greeting_eq_nil_iff (visible : enclosing? stack ≠ none) :
    greeting column true stack = [] ↔
      ∃ frame below, stack = frame :: below ∧ (frame = .pendingThen ∨ frame = .pendingElse) := by
  cases stack with
  | nil => exact absurd rfl visible
  | cons frame below =>
    cases frame with
    | bracket => exact absurd rfl visible
    | root rootColumn =>
      simp only [greeting]
      split
      · simp
      · split <;> simp
    | block kind blockColumn =>
      simp only [greeting]
      split <;> simp
    | pendingThen | pendingElse => simp [greeting]

/--
A dedent is silent exactly when the offside rule stops at an open conditional
and has given up no bracket on the way.
-/
theorem offside_silent_iff {kind : TokenKind}
    (dedents : .layoutEnd ∈ (offside kind column false stack).2)
    (visible : enclosing? (offside kind column false stack).1 ≠ none) :
    (∀ mark ∈ (offside kind column false stack).2, isNotice mark = false) ↔
      (∃ frame below, (offside kind column false stack).1 = frame :: below ∧
        (frame = .pendingThen ∨ frame = .pendingElse)) ∧
      (offside kind column false stack).1.count .bracket = stack.count .bracket := by
  obtain ⟨above, below, rfl, -, equal⟩ := offside_eq kind column false stack
  rw [equal] at dedents visible ⊢
  have popped : above.any Frame.isBlock = true := by
    refine any_isBlock_of_mem_leavings ((List.mem_append.mp dedents).resolve_right fun member => ?_)
    cases isNotice_of_mem_greeting _ member
  have kept : below.count .bracket = (above ++ below).count .bracket ↔ .bracket ∉ above := by
    rw [List.count_append, ← List.count_eq_zero]
    omega
  rw [popped, List.forall_mem_append, isNotice_leavings_iff, kept,
    ← greeting_eq_nil_iff visible, and_comm]
  refine and_congr_left fun _ => ⟨fun silent => ?_, fun nothing => nothing ▸ by simp⟩
  refine List.eq_nil_iff_forall_not_mem.mpr fun mark member => ?_
  exact Bool.false_ne_true ((silent mark member).symm.trans (isNotice_of_mem_greeting mark member))

/--
What the offside rule makes of the stack behind a stretch of tokens, and what
it puts in front of the token that comes next.
-/
def dedentAt (tabWidth : Nat) (front : List Token) (token : Token) : Stack × List TokenKind :=
  offside token.kind (columnBehind (max tabWidth 1) front) false (State.behind tabWidth front).stack

/--
A significant token that is the first on its line, opens no block and falls
under no rule of its own stands right behind the marks of the offside rule.
If they end a block and no bracket is open inside the innermost context that
stays, then there is no separator and no fault among them exactly when the
innermost frame that stays is a conditional and no bracket has been given up.
-/
theorem dedent_silent_iff (tabWidth : Nat) (source : String) (front rest : List Token)
    (token : Token) (split : Token.scan source = front ++ token :: rest)
    (significant : token.kind.isSignificant = true) (first : opensLine front = true)
    (opensNothing : (openPending (State.behind tabWidth front)
      (columnBehind (max tabWidth 1) front)).2.2 = false)
    (ordinary : hasOwnRule (State.behind tabWidth front).stack token.kind = false)
    (dedents : .layoutEnd ∈ (dedentAt tabWidth front token).2)
    (visible : enclosing? (dedentAt tabWidth front token).1 ≠ none) :
    ∃ output remainder,
      tokens tabWidth source = output ++
        insert (dedentAt tabWidth front token).2 token.span.start ++ token :: remainder ∧
      output.filter (fun earlier => !isMark earlier.kind) = front ∧
      (State.behind tabWidth (front ++ [token])).stack =
        (openedFrame? token.kind).toList ++ (dedentAt tabWidth front token).1 ∧
      ((∀ mark ∈ (dedentAt tabWidth front token).2, isNotice mark = false) ↔
        (∃ frame below, (dedentAt tabWidth front token).1 = frame :: below ∧
          (frame = .pendingThen ∨ frame = .pendingElse)) ∧
        (dedentAt tabWidth front token).1.count .bracket =
          (State.behind tabWidth front).stack.count .bracket) := by
  have started : (State.behind tabWidth front).stack ≠ [] := by
    intro isEmpty
    rw [dedentAt, isEmpty] at dedents
    cases dedents
  have lineStart : (State.behind tabWidth front).lineStart = true :=
    (State.after_lineStart front).trans first
  have same : (openPending (State.behind tabWidth front)
      (columnBehind (max tabWidth 1) front)).1 = (State.behind tabWidth front).stack := by
    rcases openPending_cases (State.behind tabWidth front)
        (columnBehind (max tabWidth 1) front) with
      equal | equal | ⟨block, equal⟩
    · rw [equal]
    · rw [equal]
    · rw [equal] at opensNothing
      cases opensNothing
  have cut : (State.behind tabWidth front).cut token =
      ((dedentAt tabWidth front token).1,
        (openPending (State.behind tabWidth front) (columnBehind (max tabWidth 1) front)).2.1 ++
          (dedentAt tabWidth front token).2) := by
    rw [State.cut_eq token started, State.behind_column, lineStart, opensNothing, same,
      Bool.not_false, Bool.and_true, before_of_not_hasOwnRule ordinary]
    rfl
  obtain ⟨remainder, output⟩ := tokens_split tabWidth split significant
  rw [cut, insert, List.map_append, ← List.append_assoc, ← insert, ← insert] at output
  refine ⟨_, remainder, output, ?_, ?_, offside_silent_iff dedents visible⟩
  · rw [List.filter_append, filter_emitted _ _ front (real_of_scan_split split),
      filter_insert _ (isMark_openPending _ _), List.append_nil]
  · rw [State.behind, State.after_append, State.after_cons, State.after_nil, State.step,
      if_neg (by simp [(isSignificant_iff.mp significant).1]), State.significant_stack,
      ← State.behind, cut]

/-- Of the two blocks in a condition that a line ends, neither leaves more than its end. -/
theorem dedent_silent_iff_in_condition :
    let source := "x = do\n  if do\n         do\n           a\n     b"
    let front := (Token.scan source).take 18
    let token : Token := ⟨.lowerName, ⟨45, 46⟩, "b"⟩
    (dedentAt 8 front token).2 = [.layoutEnd, .layoutEnd] ∧
      (dedentAt 8 front token).1 = [.pendingThen, .block .doBlock 2, .root 0] ∧
      ∃ output remainder,
        tokens 8 source = output ++ insert [.layoutEnd, .layoutEnd] 45 ++ token :: remainder ∧
        output.filter (fun earlier => !isMark earlier.kind) = front ∧
        ∀ mark ∈ (dedentAt 8 front token).2, isNotice mark = false := by
  intro source front token
  have marks : (dedentAt 8 front token).2 = [.layoutEnd, .layoutEnd] := by decide +kernel
  have stays : (dedentAt 8 front token).1 = [.pendingThen, .block .doBlock 2, .root 0] := by
    decide +kernel
  obtain ⟨output, remainder, equal, passed, -, silent⟩ :=
    dedent_silent_iff 8 source front [Token.virtual .eof 46] token (by decide +kernel) rfl
      (by decide +kernel) (by decide +kernel) (by decide +kernel) (by simp [marks])
      (by rw [stays]; decide)
  rw [marks] at equal
  refine ⟨marks, stays, output, remainder, equal, passed, silent.mpr ⟨⟨_, _, stays, .inl rfl⟩, ?_⟩⟩
  decide +kernel

/-- A line that ends a block in a condition and matches no column is not marked. -/
theorem no_mark_at_open_condition :
    (tokens 8 "x = if do\n        a\n    b").map Token.kind =
        [.lowerName, .whitespace, .equals, .whitespace, .keyword .ifWord, .whitespace,
          .keyword .doWord, .newline, .whitespace, .layoutStart, .lowerName, .newline, .whitespace,
          .layoutEnd, .lowerName, .eof] ∧
      columnBehind 8 ((Token.scan "x = if do\n        a\n    b").take 12) = 4 := by
  decide +kernel

end Offside.Layout
