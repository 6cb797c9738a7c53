import Mathlib.Data.List.Chain
import Offside.Proofs.BlockBalance
import Offside.Proofs.Landmarks

/-!
# The order of marks

Layout never puts two separators side by side, nor one at either end of a
block: behind a separator comes the first token of an item, and behind the
start of a block comes such a token or the end of the block.
-/

namespace Offside.Layout

/-- What comes behind a mark: an item behind a separator, an item or the end behind a start. -/
def Follows (mark next : TokenKind) : Prop :=
  (mark = .layoutSep → next.isSignificant = true) ∧
    (mark = .layoutStart → next = .layoutEnd ∨ next.isSignificant = true)

/-- Among the kinds that the grammar sees, every mark is followed by what may follow it. -/
def Orderly (kinds : List TokenKind) : Prop :=
  (kinds.filter TokenKind.isVisible).IsChain Follows

variable {kinds rest : List TokenKind} {mark kind : TokenKind}

theorem Orderly.cons (orderly : Orderly kinds)
    (notSep : mark ≠ .layoutSep) (notStart : mark ≠ .layoutStart) : Orderly (mark :: kinds) := by
  rw [Orderly, List.filter_cons]
  split
  · refine List.isChain_cons.mpr ⟨fun next _ => ?_, orderly⟩
    exact ⟨fun isSep => absurd isSep notSep, fun isStart => absurd isStart notStart⟩
  · exact orderly

theorem Orderly.separator (orderly : Orderly (kind :: rest))
    (significant : kind.isSignificant = true) : Orderly (.layoutSep :: kind :: rest) := by
  have visible := Grammar.isVisible_of_isSignificant significant
  rw [Orderly, List.filter_cons, if_pos visible] at orderly
  rw [Orderly, List.filter_cons, if_pos (show TokenKind.layoutSep.isVisible = true from rfl),
    List.filter_cons, if_pos visible, List.isChain_cons_cons]
  exact ⟨⟨fun _ => significant, nofun⟩, orderly⟩

theorem Orderly.leavings (orderly : Orderly kinds) (reports : Bool) (frames : Stack) :
    Orderly (leavings reports frames ++ kinds) := by
  induction frames with
  | nil => exact orderly
  | cons frame rest ih =>
    cases frame with
    | block => exact ih.cons (by rintro ⟨⟩) (by rintro ⟨⟩)
    | bracket =>
      cases reports with
      | false => exact ih
      | true => exact ih.cons (by rintro ⟨⟩) (by rintro ⟨⟩)
    | root | pendingThen | pendingElse => exact ih

theorem Orderly.start (orderly : Orderly (kind :: rest))
    (fits : kind = .layoutEnd ∨ kind.isSignificant = true) :
    Orderly (.layoutStart :: kind :: rest) := by
  have visible : kind.isVisible = true :=
    fits.elim (fun isEnd => by rw [isEnd]; rfl) Grammar.isVisible_of_isSignificant
  rw [Orderly, List.filter_cons, if_pos visible] at orderly
  rw [Orderly, List.filter_cons, if_pos (show TokenKind.layoutStart.isVisible = true from rfl),
    List.filter_cons, if_pos visible, List.isChain_cons_cons]
  exact ⟨⟨nofun, fun _ => fits⟩, orderly⟩

theorem Orderly.emptyBlock (orderly : Orderly kinds) :
    Orderly (.layoutStart :: .layoutEnd :: kinds) := by
  have closed : Orderly (.layoutEnd :: kinds) := orderly.cons nofun nofun
  exact closed.start (.inl rfl)

theorem orderly_before (orderly : Orderly (kind :: rest)) (significant : kind.isSignificant = true)
    (column : Nat) (applies : Bool) (stack : Stack) :
    Orderly ((before kind column applies stack).2 ++ kind :: rest) := by
  have cuts := before_cuts kind column applies stack
  generalize before kind column applies stack = result at cuts ⊢
  cases cuts with
  | ownRule above below added keepsRoot light => exact orderly.leavings false above
  | offsideRule above below keepsRoot isFirst =>
    rw [List.append_assoc]
    refine Orderly.leavings ?_ true above
    rcases greeting_cases column _ below with
      equal | equal | equal | equal
    all_goals rw [equal]
    · exact orderly
    · exact orderly.cons (by decide) (by decide)
    · exact orderly.separator significant
    · exact (orderly.separator significant).cons (by decide) (by decide)

theorem Orderly.start_leavings (orderly : Orderly (kind :: rest))
    (significant : kind.isSignificant = true) (frames : Stack) :
    Orderly (.layoutStart :: (Layout.leavings false frames ++ kind :: rest)) := by
  have inner := orderly.leavings false frames
  cases same : Layout.leavings false frames with
  | nil => exact orderly.start (.inr significant)
  | cons mark marks =>
    have isEnd : mark = .layoutEnd := by
      have member : mark ∈ closings frames :=
        closings_eq_leavings frames ▸ same ▸ List.mem_cons_self
      obtain ⟨frame, -, rfl⟩ := List.mem_map.mp member
      rfl
    rw [same] at inner
    exact inner.start (.inl isEnd)

theorem orderly_significant (tabWidth : Nat) (state : State) (token : Token)
    (significant : token.kind.isSignificant = true) (orderly : Orderly (token.kind :: rest)) :
    Orderly ((state.significant tabWidth token).2 ++ token.kind :: rest) := by
  unfold State.significant
  dsimp only
  split
  · exact orderly
  · unfold openPending
    split
    · exact orderly_before orderly significant _ _ _
    · split
      · rw [Bool.not_true, Bool.and_false]
        obtain ⟨above, below, added, -, -, same⟩ := before_false token.kind state.column
          _
        rw [same]
        exact orderly.start_leavings significant above
      · exact (orderly_before orderly significant _ _ _).emptyBlock

theorem orderly_step (tabWidth : Nat) (state : State) (token : Token)
    (real : token.kind.isVirtual = false) (orderly : Orderly (token.kind :: rest)) :
    Orderly ((state.step tabWidth token).2 ++ token.kind :: rest) := by
  unfold State.step
  split
  · exact orderly
  · next notBlank =>
      refine orderly_significant tabWidth state token ?_ orderly
      rw [TokenKind.isSignificant, real, Bool.eq_false_iff.mpr notBlank]
      rfl

theorem orderly_emitted (tabWidth : Nat) (state : State) (front : List Token)
    (real : ∀ token ∈ front, token.kind.isVirtual = false) (orderly : Orderly rest) :
    Orderly ((emitted tabWidth state front).map (fun token => token.kind) ++ rest) := by
  induction front generalizing state with
  | nil => exact orderly
  | cons token more ih =>
    obtain ⟨isReal, others⟩ := List.forall_mem_cons.mp real
    have later := ih (state.step tabWidth token).1 others
    rw [emitted, List.map_append, map_kind_insert, List.append_assoc]
    exact orderly_step tabWidth state token isReal
      (later.cons (ne_of_real isReal rfl) (ne_of_real isReal rfl))

theorem orderly_finish (state : State) (orderly : Orderly rest) :
    Orderly (state.finish ++ rest) := by
  rw [State.finish, closings_eq_leavings]
  split
  · exact (orderly.leavings _ _).emptyBlock
  · exact orderly.leavings _ _

theorem orderly_tokens (tabWidth : Nat) (source : String) :
    Orderly ((tokens tabWidth source).map (fun token => token.kind) ++ [.eof]) := by
  obtain ⟨front, stop, -, real, resolved⟩ := tokens_eq tabWidth source
  have last : Orderly [.eof] := List.isChain_singleton _
  have ends : Orderly [.eof, .eof] := last.cons nofun nofun
  rw [resolved, List.map_append, List.map_append, map_kind_insert, List.append_assoc,
    List.append_assoc]
  exact orderly_emitted _ _ front real (orderly_finish _ ends)

end Offside.Layout
