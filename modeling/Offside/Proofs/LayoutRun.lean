import Mathlib.Data.List.Induction
import Offside.Proofs.LayoutCuts
import Offside.Proofs.Scanning
import Offside.Proofs.Walks

/-!
# Runs of the layout resolver

The resolver reads a stretch of real tokens one by one.  Its output for the
stretch and the state after it depend on nothing that comes later, so the
output for a whole text can be cut in front of any token.  Real tokens are
passed on unchanged, and what is put between them has no text.
-/

namespace Offside.Layout

/-- One real token: the state after it, and what is put in front of it. -/
def State.step (tabWidth : Nat) (state : State) (token : Token) : State × List TokenKind :=
  if token.kind.isInsignificant then (state.pass tabWidth token, [])
  else state.significant tabWidth token

def State.after (tabWidth : Nat) (state : State) (front : List Token) : State :=
  front.foldl (fun state token => (state.step tabWidth token).1) state

def emitted (tabWidth : Nat) (state : State) : List Token → List Token
  | [] => []
  | token :: rest =>
    insert (state.step tabWidth token).2 token.span.start ++
      token :: emitted tabWidth (state.step tabWidth token).1 rest

variable {tabWidth : Nat} {state : State}

@[simp]
theorem State.after_nil : state.after tabWidth [] = state := by
  rfl

@[simp]
theorem State.after_cons (token : Token) (rest : List Token) :
    state.after tabWidth (token :: rest) =
      (state.step tabWidth token).1.after tabWidth rest := by
  rfl

theorem State.after_append (left right : List Token) :
    state.after tabWidth (left ++ right) =
      (state.after tabWidth left).after tabWidth right := by
  simp [State.after]

theorem emitted_append (left right : List Token) :
    emitted tabWidth state (left ++ right) =
      emitted tabWidth state left ++
        emitted tabWidth (state.after tabWidth left) right := by
  induction left generalizing state with
  | nil => rfl
  | cons token rest ih => simp [emitted, ih]

theorem isSignificant_iff {kind : TokenKind} :
    kind.isSignificant = true ↔ kind.isInsignificant = false ∧ kind.isVirtual = false := by
  simp [TokenKind.isSignificant]

theorem ne_of_real {kind other : TokenKind} (real : kind.isVirtual = false)
    (isVirtual : other.isVirtual = true) : kind ≠ other :=
  ne_of_apply_ne TokenKind.isVirtual (by simp [real, isVirtual])

theorem resolveFrom_append (front rest : List Token)
    (real : ∀ token ∈ front, token.kind.isVirtual = false) :
    resolveFrom tabWidth state (front ++ rest) =
      emitted tabWidth state front ++
        resolveFrom tabWidth (state.after tabWidth front) rest := by
  induction front generalizing state with
  | nil => rfl
  | cons token front ih =>
    obtain ⟨isReal, others⟩ := List.forall_mem_cons.mp real
    rw [List.cons_append, resolveFrom, emitted, State.after_cons]
    by_cases blank : token.kind.isInsignificant = true
    · rw [ih others]
      simp [State.step, blank, insert]
    · rw [if_neg (ne_of_real isReal rfl)]
      simp [State.step, blank, ih others]

/-- Tokens as a scanner gives them, with or without the end of the text. -/
def IsRaw (tokens : List Token) : Prop :=
  ∃ front, (∀ token ∈ front, token.kind.isVirtual = false) ∧
    (tokens = front ∨ ∃ last, last.kind = .eof ∧ tokens = front ++ [last])

theorem IsRaw.real_of_append {front rest : List Token} {token : Token}
    (raw : IsRaw (front ++ token :: rest)) : ∀ other ∈ front, other.kind.isVirtual = false := by
  obtain ⟨all, real, rfl | ⟨last, -, split⟩⟩ := raw
  · exact fun other member => real other (List.mem_append_left _ member)
  · rcases concat_eq_append_cons split.symm with ⟨later, rfl, -⟩ | ⟨rfl, -⟩
    · exact fun other member => real other (List.mem_append_left _ member)
    · exact real

theorem real_of_scan_split {source : String} {front rest : List Token} {token : Token}
    (split : Token.scan source = front ++ token :: rest) :
    ∀ earlier ∈ front, earlier.kind.isVirtual = false := by
  obtain ⟨all, stop, scanned, real⟩ := Token.scan_split source
  have raw : IsRaw (Token.scan source) := ⟨all, real, .inr ⟨_, rfl, scanned⟩⟩
  exact (split ▸ raw).real_of_append

theorem tokens_eq (tabWidth : Nat) (source : String) :
    ∃ front stop, Token.scan source = front ++ [Token.virtual .eof stop] ∧
      (∀ token ∈ front, token.kind.isVirtual = false) ∧
      tokens tabWidth source =
        emitted (max tabWidth 1) {} front ++
          (insert (State.after (max tabWidth 1) {} front).finish stop ++
            [Token.virtual .eof stop]) := by
  obtain ⟨front, stop, split, real⟩ := Token.scan_split source
  refine ⟨front, stop, split, real, ?_⟩
  rw [tokens, resolve, split, resolveFrom_append front _ real]
  rfl

/-! ### What is inserted -/

def isMark (kind : TokenKind) : Bool :=
  kind.isVirtual && kind ≠ .eof

theorem isMark_leavings (reports : Bool) (frames : Stack) :
    ∀ kind ∈ leavings reports frames, isMark kind = true := by
  intro kind member
  obtain ⟨frame, -, found⟩ := List.mem_flatMap.mp member
  cases frame with
  | block => rw [List.mem_singleton.mp found]; rfl
  | bracket =>
    cases reports with
    | false => cases found
    | true => rw [List.mem_singleton.mp found]; rfl
  | root | pendingThen | pendingElse => cases found

theorem isMark_closings (frames : Stack) : ∀ kind ∈ closings frames, isMark kind = true :=
  closings_eq_leavings frames ▸ isMark_leavings false frames

theorem isMark_greeting (column : Nat) (popped : Bool) (stack : Stack) :
    ∀ kind ∈ greeting column popped stack, isMark kind = true := by
  rcases greeting_cases column popped stack with equal | equal | equal | equal <;>
    simp [equal, isMark, TokenKind.isVirtual]

theorem isMark_before (kind : TokenKind) (column : Nat) (applies : Bool) (stack : Stack) :
    ∀ mark ∈ (before kind column applies stack).2, isMark mark = true := by
  have cuts := before_cuts kind column applies stack
  generalize before kind column applies stack = result at cuts ⊢
  cases cuts with
  | ownRule above below added => exact isMark_leavings false above
  | offsideRule above below =>
    exact List.forall_mem_append.mpr ⟨isMark_leavings true above, isMark_greeting _ _ below⟩

theorem isMark_openPending (state : State) (column : Nat) :
    ∀ mark ∈ (openPending state column).2.1, isMark mark = true := by
  rcases openPending_cases state column with equal | equal | ⟨block, equal⟩ <;>
    simp [equal, isMark, TokenKind.isVirtual]

theorem isMark_cut (state : State) (token : Token) :
    ∀ mark ∈ (state.cut token).2, isMark mark = true := by
  unfold State.cut
  split
  · simp
  · exact List.forall_mem_append.mpr ⟨isMark_openPending state _, isMark_before _ _ _ _⟩

theorem isMark_step (tabWidth : Nat) (state : State) (token : Token) :
    ∀ mark ∈ (state.step tabWidth token).2, isMark mark = true := by
  unfold State.step
  split
  · simp
  · exact isMark_cut state token

theorem isMark_finish (state : State) : ∀ mark ∈ state.finish, isMark mark = true := by
  intro mark member
  rcases List.mem_append.mp member with pending | closing
  · split at pending
    · simp at pending
      rcases pending with rfl | rfl <;> rfl
    · simp at pending
  · exact isMark_closings _ mark closing

theorem isMark_of_mem_insert {kinds : List TokenKind} (offset : Nat)
    (marks : ∀ kind ∈ kinds, isMark kind = true) :
    ∀ token ∈ insert kinds offset, isMark token.kind = true := by
  intro token member
  obtain ⟨kind, found, rfl⟩ := List.mem_map.mp member
  exact marks kind found

theorem filter_insert {kinds : List TokenKind} (offset : Nat)
    (marks : ∀ kind ∈ kinds, isMark kind = true) :
    (insert kinds offset).filter (fun token => !isMark token.kind) = [] := by
  rw [List.filter_eq_nil_iff]
  intro token member
  simp [isMark_of_mem_insert offset marks token member]

/-! ### What is kept -/

@[simp]
theorem textOf_insert (kinds : List TokenKind) (offset : Nat) :
    Token.textOf (insert kinds offset) = "" := by
  induction kinds with
  | nil => rfl
  | cons kind rest ih =>
    rw [insert, List.map_cons, Token.textOf_cons, ← insert, ih]
    rfl

theorem textOf_emitted (front : List Token) :
    Token.textOf (emitted tabWidth state front) = Token.textOf front := by
  induction front generalizing state with
  | nil => rfl
  | cons token rest ih => simp [emitted, ih]

theorem filter_emitted (tabWidth : Nat) (state : State) (front : List Token)
    (real : ∀ token ∈ front, token.kind.isVirtual = false) :
    (emitted tabWidth state front).filter (fun token => !isMark token.kind) =
      front := by
  induction front generalizing state with
  | nil => rfl
  | cons token rest ih =>
    obtain ⟨isReal, others⟩ := List.forall_mem_cons.mp real
    rw [emitted, List.filter_append, filter_insert _ (isMark_step tabWidth state token),
      List.nil_append, List.filter_cons_of_pos (by simp [isMark, isReal]), ih _ others]

theorem textOf_tokens (tabWidth : Nat) (source : String) :
    Token.textOf (tokens tabWidth source) = source := by
  obtain ⟨front, stop, split, -, output⟩ := tokens_eq tabWidth source
  have spelled := Token.textOf_scan source
  rw [split] at spelled
  rw [output]
  simpa [textOf_emitted] using spelled

theorem mem_scan_of_mem_tokens {tabWidth : Nat} {source : String} {token : Token}
    (member : token ∈ tokens tabWidth source) (real : token.kind.isVirtual = false) :
    token ∈ Token.scan source := by
  obtain ⟨front, stop, split, allReal, output⟩ := tokens_eq tabWidth source
  have notMark : isMark token.kind = false := by rw [isMark, real, Bool.false_and]
  rw [output, List.mem_append, List.mem_append, List.mem_singleton] at member
  rw [split]
  rcases member with passed | inserted | rfl
  · refine List.mem_append_left _ ?_
    rw [← filter_emitted _ {} front allReal]
    exact List.mem_filter.mpr ⟨passed, by rw [notMark]; rfl⟩
  · rw [isMark_of_mem_insert _ (isMark_finish _) token inserted] at notMark
    cases notMark
  · cases real

theorem laid_insert (kinds : List TokenKind) (offset : Nat) :
    Token.Laid offset (insert kinds offset) := by
  induction kinds with
  | nil => trivial
  | cons kind rest ih => exact ⟨rfl, ih⟩

theorem laid_emitted {tabWidth offset : Nat} {state : State} {front : List Token}
    (laid : Token.Laid offset front) : Token.Laid offset (emitted tabWidth state front) := by
  induction front generalizing state offset with
  | nil => trivial
  | cons token rest ih =>
    obtain ⟨own, later⟩ := laid
    rw [emitted, Token.laid_append, textOf_insert, own]
    exact ⟨laid_insert _ _, own, ih later⟩

theorem laid_tokens (tabWidth : Nat) (source : String) : Token.Laid 0 (tokens tabWidth source) := by
  obtain ⟨front, stop, split, -, output⟩ := tokens_eq tabWidth source
  have laid := Token.laid_scanFrom 0 0 source.toList
  rw [← Token.scan, split, Token.laid_append] at laid
  obtain ⟨passed, isStop, -⟩ := laid
  have stops : stop = 0 + (Token.textOf front).utf8ByteSize := congrArg Span.start isStop
  rw [output, Token.laid_append, Token.laid_append, textOf_insert, textOf_emitted, ← stops]
  exact ⟨laid_emitted passed, laid_insert _ _, rfl, trivial⟩

theorem resolveFrom_eof_last (tabWidth : Nat) (state : State) (tokens : List Token) :
    ∃ front last, resolveFrom tabWidth state tokens = front ++ [last] ∧ last.kind = .eof ∧
      ∀ token ∈ front, token.kind ≠ .eof := by
  have inserted {kinds : List TokenKind} (marks : ∀ kind ∈ kinds, isMark kind = true)
      (offset : Nat) : ∀ token ∈ insert kinds offset, token.kind ≠ .eof := by
    intro token member isEnd
    have mark := isMark_of_mem_insert offset marks token member
    rw [isEnd] at mark
    exact absurd mark (by decide)
  induction tokens generalizing state with
  | nil => exact ⟨_, _, rfl, rfl, inserted (isMark_finish state) _⟩
  | cons token rest ih =>
    rw [resolveFrom]
    split
    · next blank =>
        obtain ⟨front, last, output, isEnd, others⟩ := ih _
        refine ⟨token :: front, last, by rw [output, List.cons_append], isEnd, ?_⟩
        refine List.forall_mem_cons.mpr ⟨fun same => ?_, others⟩
        rw [same] at blank
        cases blank
    · split
      · next isEnd => exact ⟨_, token, rfl, isEnd, inserted (isMark_finish state) _⟩
      · next significant notEnd =>
          have marks := isMark_step tabWidth state token
          rw [State.step, if_neg significant] at marks
          obtain ⟨front, last, output, isEnd, others⟩ :=
            ih (state.significant tabWidth token).1
          refine ⟨insert (state.significant tabWidth token).2 token.span.start ++
            token :: front, last, ?_, isEnd, ?_⟩
          · simp only [output, List.append_assoc, List.cons_append]
          · intro other member
            rcases List.mem_append.mp member with isMark_ | later
            · exact inserted marks _ other isMark_
            · rcases List.mem_cons.mp later with rfl | behind
              · exact notEnd
              · exact others other behind

theorem tokens_end (tabWidth : Nat) (source : String) :
    ∃ front stop, tokens tabWidth source = front ++ [Token.virtual .eof stop] ∧
      ∀ token ∈ front, token.kind ≠ .eof := by
  obtain ⟨front, stop, -, -, output⟩ := tokens_eq tabWidth source
  obtain ⟨others, last, whole, -, notEnd⟩ :=
    resolveFrom_eof_last (max tabWidth 1) {} (Token.scan source)
  rw [← List.append_assoc] at output
  obtain ⟨same, -⟩ := List.append_inj' (whole.symm.trans output) rfl
  exact ⟨_, stop, output, same ▸ notEnd⟩

/-! ### Columns and lines -/

/-- The column behind a stretch of tokens from the start of a text. -/
def columnBehind (tabWidth : Nat) (front : List Token) : Nat :=
  columnAfter tabWidth 0 (Token.textOf front)

/--
What comes behind the tokens is the first on its line: no significant token
stands between it and the last end of a line, or the start of the text.
-/
def opensLine (front : List Token) : Bool :=
  let blanks := front.reverse.takeWhile fun token => token.kind.isInsignificant
  blanks.length = front.length ||
    blanks.any fun token => token.text.toList.contains '\n'

theorem columnAfter_append (tabWidth column : Nat) (left right : String) :
    columnAfter tabWidth column (left ++ right) =
      columnAfter tabWidth (columnAfter tabWidth column left) right := by
  simp [columnAfter]

theorem State.step_column (token : Token) :
    (state.step tabWidth token).1.column =
      columnAfter tabWidth state.column token.text := by
  unfold State.step
  split <;> rfl

theorem State.after_column (front : List Token) :
    (state.after tabWidth front).column =
      columnAfter tabWidth state.column (Token.textOf front) := by
  induction front generalizing state with
  | nil => rfl
  | cons token rest ih =>
    rw [State.after_cons, ih, State.step_column, Token.textOf_cons, columnAfter_append]

theorem opensLine_concat (front : List Token) (token : Token) :
    opensLine (front ++ [token]) =
      (token.kind.isInsignificant &&
        (opensLine front || token.text.toList.contains '\n')) := by
  by_cases blank : token.kind.isInsignificant = true
  · simp [opensLine, blank, Bool.or_comm, Bool.or_left_comm]
  · simp [opensLine, blank]

theorem State.after_lineStart (front : List Token) :
    (State.after tabWidth {} front).lineStart = opensLine front := by
  induction front using List.reverseRecOn with
  | nil => rfl
  | append_singleton front token ih =>
    rw [opensLine_concat, ← ih, State.after_append]
    by_cases blank : token.kind.isInsignificant = true
    · simp [State.step, blank, State.pass]
    · simp [State.step, blank, State.significant]

end Offside.Layout
