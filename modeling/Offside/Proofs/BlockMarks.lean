import Offside.Tree.Basic

/-!
# Marks of blocks in a tree

Layout marks where a block starts and ends and where its items are separated.
What stands under an error node has not been read and does not count.  Marks
are well placed if blocks are closed only after they were opened and items are
separated only inside a block.
-/

namespace Offside

/-- The marks of a block: its start, its end, and what separates its items. -/
def TokenKind.isBlockMark : TokenKind → Bool
  | layoutStart | layoutSep | layoutEnd => true
  | _ => false

/-- The number of blocks open after a mark, if the mark is well placed. -/
def depthAfterMark (depth : Nat) : TokenKind → Option Nat
  | .layoutStart => some (depth + 1)
  | .layoutSep => if depth = 0 then none else some depth
  | .layoutEnd => if depth = 0 then none else some (depth - 1)
  | _ => some depth

/-- The number of blocks open after marks, if all of them are well placed. -/
def depthAfter (depth : Nat) (marks : List TokenKind) : Option Nat :=
  marks.foldlM depthAfterMark depth

@[simp]
theorem depthAfter_nil (depth : Nat) : depthAfter depth [] = some depth := by
  rfl

theorem depthAfter_cons (depth : Nat) (mark : TokenKind) (rest : List TokenKind) :
    depthAfter depth (mark :: rest) =
      (depthAfterMark depth mark).bind fun reached => depthAfter reached rest := by
  rfl

theorem depthAfter_append (depth : Nat) (left right : List TokenKind) :
    depthAfter depth (left ++ right) =
      (depthAfter depth left).bind fun reached => depthAfter reached right := by
  rw [depthAfter, List.foldlM_append]
  rfl

theorem depthAfter_add {depth reached : Nat} {marks : List TokenKind} (outer : Nat)
    (placed : depthAfter depth marks = some reached) :
    depthAfter (depth + outer) marks = some (reached + outer) := by
  induction marks generalizing depth with
  | nil =>
    rw [depthAfter_nil, Option.some.injEq] at placed
    rw [depthAfter_nil, placed]
  | cons mark rest ih =>
    rw [depthAfter_cons, Option.bind_eq_some_iff] at placed
    obtain ⟨next, marked, placed⟩ := placed
    have shifted : depthAfterMark (depth + outer) mark = some (next + outer) := by
      unfold depthAfterMark at marked ⊢
      split at marked <;> grind
    rw [depthAfter_cons, shifted]
    exact ih placed

namespace Tree

mutual

/-- The marks of blocks in a tree, from left to right, but for those under error nodes. -/
def blockMarks : Tree → List TokenKind
  | leaf token => if token.kind.isBlockMark then [token.kind] else []
  | node kind _ _ children => if kind = .error then [] else forestMarks children

def forestMarks : List Tree → List TokenKind
  | [] => []
  | tree :: rest => tree.blockMarks ++ forestMarks rest

end

@[simp]
theorem forestMarks_append (left right : List Tree) :
    forestMarks (left ++ right) = forestMarks left ++ forestMarks right := by
  induction left with
  | nil => rfl
  | cons tree rest ih => simp [forestMarks, ih]

end Tree

end Offside
