import Offside.Grammar.Reading
import Offside.Proofs.Walks

/-!
# Skipped tokens

What fits nowhere goes to an error node: a single token, or everything up to
the end of the current construct.  While it skips, the grammar counts the
blocks and brackets that it has opened.  It passes a separator only while one
of them is open.
-/

namespace Offside.Grammar

def Skipped.isOpen (skipped : Skipped) : Bool :=
  skipped.blocks ≠ 0 || skipped.brackets ≠ 0

def skippedOver (tokens : List Token) : Skipped :=
  tokens.foldl (fun skipped token => skipped.after token.kind) {}

/-- Every separator among the tokens stands behind something they opened and did not close. -/
def Guarded (tokens : List Token) : Prop :=
  ∀ before token after, tokens = before ++ token :: after → token.kind = .layoutSep →
    (skippedOver before).isOpen = true

/-- The tokens hold at most one that the grammar sees, or separators are guarded. -/
def Confined (tokens : List Token) : Prop :=
  (tokens.filter fun token => token.kind.isVisible).length ≤ 1 ∨ Guarded tokens

theorem guarded_nil : Guarded [] := by
  intro before token after split
  simp at split

variable {tokens : List Token}

theorem Guarded.snoc {token : Token} (guarded : Guarded tokens)
    (isOpen : token.kind = .layoutSep → (skippedOver tokens).isOpen = true) :
    Guarded (tokens ++ [token]) := by
  intro before other after split isSep
  rcases concat_eq_append_cons split with ⟨rest, isEarlier, -⟩ | ⟨rfl, rfl, -⟩
  · exact guarded before other rest isEarlier isSep
  · exact isOpen isSep

theorem skippedOver_snoc (tokens : List Token) (token : Token) :
    skippedOver (tokens ++ [token]) = (skippedOver tokens).after token.kind := by
  rw [skippedOver, List.foldl_append]
  rfl

theorem after_of_not_isVisible {kind : TokenKind} (hidden : kind.isVisible = false)
    (skipped : Skipped) : skipped.after kind = skipped := by
  cases kind with
  | layoutStart | layoutEnd | opening _ | closing _ => cases hidden
  | _ => rfl

theorem skippedOver_filter (tokens : List Token) :
    skippedOver (tokens.filter fun token => token.kind.isVisible) = skippedOver tokens := by
  rw [skippedOver, List.foldl_filter]
  congr 1
  funext skipped token
  cases visible : token.kind.isVisible with
  | true => rfl
  | false => exact (after_of_not_isVisible visible skipped).symm

theorem confined_of_filter (confined : Confined (tokens.filter fun token => token.kind.isVisible)) :
    Confined tokens := by
  refine confined.imp (fun few => ?_) fun guarded before token after split isSep => ?_
  · simpa using few
  · have visible : token.kind.isVisible = true := by
      rw [isSep]
      rfl
    rw [← skippedOver_filter]
    refine guarded _ token (after.filter fun token => token.kind.isVisible) ?_ isSep
    rw [split, List.filter_append, List.filter_cons, if_pos visible]

theorem confined_of_length_le (few : tokens.length ≤ 1) : Confined tokens :=
  .inl (Nat.le_trans (List.length_filter_le _ _) few)

theorem confined_of_no_separator (others : ∀ token ∈ tokens, token.kind ≠ .layoutSep) :
    Confined tokens := by
  refine .inr fun before token after split isSep => absurd isSep (others token ?_)
  rw [split]
  exact List.mem_append_right _ List.mem_cons_self

end Offside.Grammar
