import Offside.Proofs.LayoutRun

/-!
# What the layout resolver inserts

The resolver only adds to the tokens that it is given.  Without the marks that
it inserts, its output is its input, closed by an end of the text if there was
none.  A mark has no text, and nothing but other marks stands between it and
the token where it is put, which is never a blank or a comment.
-/

namespace Offside.Layout

/-- Where a stretch of tokens ends; nothing ends where a text begins. -/
def stopOf (tokens : List Token) : Nat :=
  tokens.getLast?.elim 0 fun token => token.span.stop

/--
The mark has no text and stands where the first token behind it starts that is
not a mark itself, and that token is neither a blank nor a comment.
-/
def Announces (mark : Token) (behind : List Token) : Prop :=
  mark.text = "" ∧ ∃ marks next rest, behind = marks ++ next :: rest ∧
    (∀ other ∈ marks, isMark other.kind = true) ∧
    isMark next.kind = false ∧ next.kind.isInsignificant = false ∧
    mark.span = Span.empty next.span.start

/-- Every mark among the tokens announces what comes behind it. -/
def Attached (tokens : List Token) : Prop :=
  ∀ before mark behind, tokens = before ++ mark :: behind → isMark mark.kind = true →
    Announces mark behind

variable {tabWidth : Nat} {state : State} {front tail : List Token} {token : Token}

theorem Attached.cons (attached : Attached tail)
    (announces : isMark token.kind = true → Announces token tail) : Attached (token :: tail) := by
  intro before mark behind split isMark_
  cases before with
  | nil =>
    obtain ⟨rfl, rfl⟩ := List.cons.inj split
    exact announces isMark_
  | cons first before =>
    obtain ⟨-, later⟩ := List.cons.inj split
    exact attached before mark behind later isMark_

theorem Attached.insert {kinds : List TokenKind} (marks : ∀ kind ∈ kinds, isMark kind = true)
    (plain : isMark token.kind = false)
    (solid : kinds = [] ∨ token.kind.isInsignificant = false) (attached : Attached tail) :
    Attached (insert kinds token.span.start ++ token :: tail) := by
  induction kinds with
  | nil => exact attached.cons fun isMark_ => absurd isMark_ (by rw [plain]; nofun)
  | cons kind kinds ih =>
    obtain ⟨-, others⟩ := List.forall_mem_cons.mp marks
    have significant := solid.resolve_left (List.cons_ne_nil kind kinds)
    exact (ih others (.inr significant)).cons fun _ =>
      ⟨rfl, _, token, tail, rfl, isMark_of_mem_insert _ others, plain, significant, rfl⟩

theorem step_of_isInsignificant (blank : token.kind.isInsignificant = true) :
    (state.step tabWidth token).2 = [] := by
  rw [State.step, if_pos blank]

theorem Attached.emitted (real : ∀ token ∈ front, token.kind.isVirtual = false)
    (attached : Attached tail) : Attached (emitted tabWidth state front ++ tail) := by
  induction front generalizing state with
  | nil => exact attached
  | cons token front ih =>
    obtain ⟨tokenReal, others⟩ := List.forall_mem_cons.mp real
    rw [Layout.emitted, List.append_assoc]
    refine (ih others).insert (isMark_step tabWidth state token) ?_ ?_
    · rw [isMark, tokenReal, Bool.false_and]
    · cases blank : token.kind.isInsignificant with
      | true => exact .inl (step_of_isInsignificant blank)
      | false => exact .inr rfl

theorem Attached.finish (state : State) (isEnd : token.kind = .eof) :
    Attached (Layout.insert state.finish token.span.start ++ [token]) := by
  have nothing : Attached [] := by
    intro before mark behind split
    simp at split
  refine nothing.insert (isMark_finish state) ?_ (.inr ?_)
  · rw [isEnd]
    rfl
  · rw [isEnd]
    rfl

theorem State.after_offset (front : List Token) :
    (State.after tabWidth {} front).offset = stopOf front := by
  induction front using List.reverseRecOn with
  | nil => rfl
  | append_singleton front token _ =>
    rw [State.after_append, State.after_cons, stopOf, List.getLast?_concat]
    unfold State.step
    split <;> rfl

/-- The end of a text: its own, or else one where the last token ends. -/
def endOf (front : List Token) (last : Option Token) : Token :=
  last.getD (Token.virtual .eof (stopOf front))

/-- The output for real tokens: the tokens themselves, what is owed at the end, and the end. -/
theorem resolve_append_toList (tabWidth : Nat)
    (real : ∀ token ∈ front, token.kind.isVirtual = false) {last : Option Token}
    (ends : ∀ token ∈ last, token.kind = .eof) :
    (endOf front last).kind = .eof ∧
      resolve tabWidth (front ++ last.toList) = emitted (max tabWidth 1) {} front ++
        (insert (State.after (max tabWidth 1) {} front).finish (endOf front last).span.start ++
          [endOf front last]) := by
  rw [resolve, resolveFrom_append front _ real]
  cases last with
  | none =>
    refine ⟨rfl, ?_⟩
    rw [Option.toList_none, resolveFrom, State.after_offset]
    rfl
  | some last =>
    have isEnd : last.kind = .eof := ends last rfl
    refine ⟨isEnd, ?_⟩
    rw [Option.toList_some, resolveFrom, isEnd]
    rfl

/--
The resolver keeps what it is given.  Without the marks that it inserts, its
output is the real tokens that it read, unchanged and in order, and then one
end of the text: the one that it was given, or one where the last token ends.
Every mark that it inserts has no text and stands where the next token starts
that is not a mark, with no blank or comment between them.
-/
theorem resolve_conservative (tabWidth : Nat)
    (real : ∀ token ∈ front, token.kind.isVirtual = false) {last : Option Token}
    (ends : ∀ token ∈ last, token.kind = .eof) :
    (resolve tabWidth (front ++ last.toList)).filter (fun token => !isMark token.kind) =
        front ++ [endOf front last] ∧
      Attached (resolve tabWidth (front ++ last.toList)) := by
  obtain ⟨isEnd, output⟩ := resolve_append_toList tabWidth real ends
  constructor
  · rw [output, List.filter_append, List.filter_append, filter_emitted _ _ front real,
      filter_insert _ (isMark_finish _), List.nil_append,
      List.filter_cons_of_pos (by rw [isEnd]; rfl), List.filter_nil]
  · rw [output]
    exact Attached.emitted real (.finish _ isEnd)

/-- The tokens break off behind a keyword that opens a block, and have no end of their own. -/
theorem resolve_conservative_truncated :
    (∀ token ∈ (Token.scan "x = do\n  y").take 7, token.kind.isVirtual = false) ∧
      (resolve 8 ((Token.scan "x = do\n  y").take 7)).filter
          (fun token => !isMark token.kind) =
        (Token.scan "x = do\n  y").take 7 ++ [Token.virtual .eof 9] ∧
      Announces (Token.virtual .layoutStart 9)
        [Token.virtual .layoutEnd 9, Token.virtual .eof 9] := by
  have real : ∀ token ∈ (Token.scan "x = do\n  y").take 7, token.kind.isVirtual = false := by
    decide +kernel
  have noEnd : ∀ token ∈ (none : Option Token), token.kind = .eof := nofun
  have stops : stopOf ((Token.scan "x = do\n  y").take 7) = 9 := by
    decide +kernel
  obtain ⟨kept, attached⟩ := resolve_conservative 8 real noEnd
  rw [Option.toList_none, List.append_nil] at kept attached
  rw [endOf, Option.getD_none, stops] at kept
  exact ⟨real, kept, attached ((Token.scan "x = do\n  y").take 7) _ _ (by decide +kernel) rfl⟩

end Offside.Layout
