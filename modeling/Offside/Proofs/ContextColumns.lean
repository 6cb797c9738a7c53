import Offside.Proofs.Resynchronisation

/-!
# The columns of open contexts

Separators and ends of blocks mean something only because the contexts on the
stack of the resolver are ordered.  The root lies at the bottom and nowhere
else.  As long as no bracket lies in between, every context stands to the
right of those under it.  There is one exception: in a text that starts with
`module`, a block that a `where` opens directly on the root may stand at the
column of the root.  The body of the module is such a block, and so is the
block of a later `where` that has ended the body.
-/

namespace Offside.Layout

namespace Stacked

variable {headed : Bool} {rootColumn : Nat} {above below stack : Stack}

theorem eq_append_root (stacked : Stacked headed rootColumn stack) :
    ∃ above, stack = above ++ [.root rootColumn] ∧ ∀ frame ∈ above, frame.isRoot = false := by
  induction stacked with
  | root => exact ⟨[], rfl, nofun⟩
  | block kind column stacked indented ih =>
    obtain ⟨above, rfl, others⟩ := ih
    exact ⟨_ :: above, rfl, List.forall_mem_cons.mpr ⟨rfl, others⟩⟩
  | @light frame below notContext stacked ih =>
    obtain ⟨above, rfl, others⟩ := ih
    refine ⟨frame :: above, rfl, List.forall_mem_cons.mpr ⟨?_, others⟩⟩
    cases frame with
    | root => cases notContext
    | block | bracket | pendingThen | pendingElse => rfl

theorem of_append (stacked : Stacked headed rootColumn (above ++ below)) (nonempty : below ≠ []) :
    Stacked headed rootColumn below := by
  refine stacked.under fun frame isLast => ?_
  obtain ⟨others, split, notRoot⟩ := stacked.eq_append_root
  rw [← List.dropLast_concat_getLast nonempty, ← List.append_assoc] at split
  have front := (List.append_inj' split rfl).1
  exact notRoot frame (front ▸ List.mem_append_left _ (List.mem_of_getLast? isLast))

/-- Of two contexts with no bracket in between, the upper one stands further to the right. -/
theorem lt_or_body {inner : Stack} {upper lower : Frame} {upperColumn lowerColumn : Nat}
    (stacked : Stacked headed rootColumn ([upper] ++ (inner ++ lower :: below)))
    (noBracket : .bracket ∉ inner) (isUpper : upper.IsAt upperColumn)
    (isLower : lower.IsAt lowerColumn) :
    lowerColumn < upperColumn ∨ headed = true ∧ inner = [] ∧
      upper = .block .whereBlock lowerColumn ∧ lower = .root lowerColumn := by
  have inside : Stacked headed rootColumn (inner ++ lower :: below) :=
    stacked.of_append (by simp)
  obtain ⟨⟨outer, enclosed, reached⟩, -⟩ := resumes_above inside isLower noBracket
  rcases isUpper with rfl | ⟨kind, rfl⟩
  · cases inner <;> cases stacked <;> contradiction
  · cases stacked with
    | light notContext => cases notContext
    | block _ _ stacked indented =>
      rcases indented outer enclosed with right | ⟨starts, rfl, rfl, alone⟩
      · exact .inl (Nat.lt_of_le_of_lt reached right)
      · have isRoot : inner = [] ∧ lower = .root upperColumn ∧ below = [] := by
          simpa [List.append_eq_singleton_iff] using alone
        obtain ⟨rfl, rfl, rfl⟩ := isRoot
        rcases isLower with same | ⟨kind, same⟩
        · cases same
          exact .inr ⟨starts, rfl, rfl, rfl⟩
        · cases same

end Stacked

/--
On any raw tokens, behind the first significant one, the root is the bottom of
the stack and lies nowhere else.  Of two contexts with no bracket in between,
the upper one stands to the right of the lower one, unless the text starts
with `module` and the upper one is a block that a `where` has opened directly
on the root, at the column of the root.
-/
theorem context_columns_increase (tabWidth : Nat) {front : List Token} (rest : List Token)
    (real : ∀ token ∈ front, token.kind.isVirtual = false)
    (started : ∃ token ∈ front, token.kind.isInsignificant = false) :
    ∃ blanks first later output above,
      front = blanks ++ first :: later ∧
      (∀ token ∈ blanks, token.kind.isInsignificant = true) ∧
      first.kind.isInsignificant = false ∧
      resolve tabWidth (front ++ rest) =
        output ++ resolveFrom (max tabWidth 1) (State.behind tabWidth front) rest ∧
      (State.behind tabWidth front).stack =
        above ++ [.root (columnBehind (max tabWidth 1) blanks)] ∧
      (∀ frame ∈ above, frame.isRoot = false) ∧
      ∀ outer upper inner lower below upperColumn lowerColumn,
        (State.behind tabWidth front).stack = outer ++ upper :: inner ++ lower :: below →
        .bracket ∉ inner → upper.IsAt upperColumn → lower.IsAt lowerColumn →
        lowerColumn < upperColumn ∨ first.kind = .keyword .moduleWord ∧ inner = [] ∧
          upper = .block .whereBlock lowerColumn ∧ lower = .root lowerColumn := by
  obtain ⟨blanks, first, later, split, blank, notBlank⟩ := exists_first started
  have stacked := (stacked_after (max tabWidth 1) blank notBlank later).2
  rw [← split, ← State.behind] at stacked
  obtain ⟨above, isStack, notRoot⟩ := stacked.eq_append_root
  refine ⟨blanks, first, later, _, above, split, blank, notBlank,
    resolveFrom_append front rest real, isStack, notRoot, ?_⟩
  intro outer upper inner lower below upperColumn lowerColumn isSplit noBracket isUpper isLower
  rw [isSplit, List.append_assoc] at stacked
  simpa using (stacked.of_append (by simp)).lt_or_body noBracket isUpper isLower

/-- Contexts inside a bracket may stand to the left of those around it. -/
theorem context_columns_increase_around_bracket :
    let front := (Token.scan "module M where\nx = do\n    f (case y of\n  z -> z").take 25
    (∀ token ∈ front, token.kind.isVirtual = false) ∧
      (∃ token ∈ front, token.kind.isInsignificant = false) ∧
      (State.behind 8 front).stack =
        [.block .ofBlock 2, .bracket, .block .doBlock 4, .block .whereBlock 0, .root 0] ∧
      ∃ above column, (State.behind 8 front).stack = above ++ [.root column] ∧
        (∀ frame ∈ above, frame.isRoot = false) ∧
        ∀ outer inner lower below upperColumn lowerColumn,
          (State.behind 8 front).stack =
            outer ++ .block .doBlock upperColumn :: inner ++ lower :: below →
          .bracket ∉ inner → lower.IsAt lowerColumn → lowerColumn < upperColumn := by
  intro front
  have real : ∀ token ∈ front, token.kind.isVirtual = false := by decide +kernel
  have started : ∃ token ∈ front, token.kind.isInsignificant = false := by decide +kernel
  obtain ⟨blanks, first, later, output, above, -, -, -, -, isStack, notRoot, increase⟩ :=
    context_columns_increase 8 [] real started
  refine ⟨real, started, by decide +kernel, above, _, isStack, notRoot, ?_⟩
  intro outer inner lower below upperColumn lowerColumn split noBracket isLower
  rcases increase _ _ _ _ _ _ _ split noBracket (.inr ⟨_, rfl⟩) isLower with right | body
  · exact right
  · cases body.2.2.1

/-- A `where` that ends the body of a module opens its own block at the column of the root. -/
theorem later_where_opens_at_root :
    (State.behind 8 ((Token.scan "module M where\nx\nwhere\ny").take 9)).stack = [.root 0] ∧
      (State.behind 8 ((Token.scan "module M where\nx\nwhere\ny").take 11)).stack =
        [.block .whereBlock 0, .root 0] := by
  decide +kernel

end Offside.Layout
