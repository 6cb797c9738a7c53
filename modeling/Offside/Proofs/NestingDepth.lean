import Offside.Proofs.Cancellation
import Offside.Proofs.Places

/-!
# How deep constructs are nested

Five kinds of nodes enclose whole productions, and a production inside one of
them runs one level deeper.  So on no path of a tree are there more of them
than there are levels.
-/

namespace Offside

def NodeKind.isEnclosing : NodeKind → Bool
  | .exprParens | .exprCase | .exprDo | .typeParens | .binderParens => true
  | _ => false

namespace Tree

mutual

/-- The greatest number of nodes on a path of a tree that enclose whole productions. -/
def nesting : Tree → Nat
  | leaf _ => 0
  | node kind _ _ children => kind.isEnclosing.toNat + forestNesting children

/-- The greatest number of nodes on a path of a row of trees that enclose whole productions. -/
def forestNesting : List Tree → Nat
  | [] => 0
  | tree :: rest => max tree.nesting (forestNesting rest)

end

theorem forestNesting_append (left right : List Tree) :
    forestNesting (left ++ right) = max (forestNesting left) (forestNesting right) := by
  induction left with
  | nil => exact rfl.symm
  | cons tree rest ih => rw [List.cons_append, forestNesting, ih, forestNesting, Nat.max_assoc]

theorem forestNesting_map_leaf (tokens : List Token) : forestNesting (tokens.map leaf) = 0 := by
  induction tokens with
  | nil => rfl
  | cons token rest ih => rw [List.map_cons, forestNesting, ih]; rfl

theorem forestNesting_ofChildren (kind : NodeKind) (error : Option Diagnostic) (openedAt : Nat)
    (children : List Tree) :
    forestNesting [ofChildren kind error openedAt children] =
      kind.isEnclosing.toNat + forestNesting children :=
  Nat.max_zero _

theorem countP_forestPlaces : (above : List NodeKind) → (row : List Tree) →
    ∀ placed ∈ forestPlaces above row, placed.above.countP NodeKind.isEnclosing ≤
      forestNesting row + above.countP NodeKind.isEnclosing
  | _, [] => List.forall_mem_nil _
  | above, leaf _ :: rest => by
    refine List.forall_mem_cons.mpr ⟨Nat.le_add_left _ _, fun placed member => ?_⟩
    have within := countP_forestPlaces above rest placed member
    rw [forestNesting]
    omega
  | above, node kind _ _ children :: rest => by
    rw [forestNesting, nesting]
    refine List.forall_mem_append.mpr ⟨fun placed inTree => ?_, fun placed inRest => ?_⟩
    · have within := countP_forestPlaces (kind :: above) children placed inTree
      rw [List.countP_cons] at within
      cases encloses : kind.isEnclosing <;> simp [encloses] at within ⊢ <;> omega
    · have within := countP_forestPlaces above rest placed inRest
      omega

end Tree

namespace Grammar

open Offside.Tree (forestNesting forestNesting_append forestNesting_map_leaf
  forestNesting_ofChildren)

theorem isEnclosing_of_isLoose {kind : NodeKind} (loose : isLoose kind = true) :
    kind.isEnclosing = false := by
  cases kind <;> first | rfl | cases loose

variable {sourceLength : Nat}

theorem Grafts.nesting {allowed : TokenKind → Bool} {pending left : List Token}
    {row : List Tree} (grafts : Grafts sourceLength allowed pending row left) :
    forestNesting row = 0 := by
  induction grafts with
  | done => rfl
  | leaf _ _ _ ih => rw [forestNesting, ih]; rfl
  | fault _ _ _ _ _ ih => rw [forestNesting, ih]; rfl

theorem Builds.nesting {depth : Nat} {phase : Phase} {first second : List Tree × List Token}
    (builds : Builds sourceLength depth phase first second) {bound : Nat}
    (levels : maxDepth - depth + phase.encloses.toNat ≤ bound)
    (before : forestNesting first.1 ≤ bound) :
    forestNesting second.1 ≤ bound := by
  induction builds generalizing bound with
  | stay => exact before
  | trans _ _ left right => exact right levels (left levels before)
  | graft _ _ _ grafts | join _ _ grafts =>
    rw [forestNesting_append, grafts.nesting]
    exact Nat.max_le.mpr ⟨before, Nat.zero_le bound⟩
  | skip _ _ _ _ _ _ _ grafts =>
    rw [forestNesting_append, forestNesting_ofChildren, forestNesting, grafts.nesting]
    exact Nat.max_le.mpr ⟨before, Nat.zero_le bound⟩
  | report =>
    rw [forestNesting_append, forestNesting_ofChildren]
    rw [forestNesting_append] at before
    exact Nat.le_trans (by simp [NodeKind.isEnclosing]) before
  | node _ _ _ loose _ ih =>
    rw [forestNesting_append, forestNesting_ofChildren, isEnclosing_of_isLoose loose,
      Bool.toNat_false, Nat.zero_add]
    exact Nat.max_le.mpr ⟨before, ih levels (Nat.zero_le bound)⟩
  | @enclose _ _ _ _ children kind _ _ _ ih =>
    -- One of the levels is taken by this node.
    rw [Bool.toNat_true] at levels
    have inside : forestNesting children ≤ bound - 1 :=
      ih (by rw [Bool.toNat_false]; omega) (Nat.zero_le _)
    have one := kind.isEnclosing.toNat_le
    rw [forestNesting_append, forestNesting_ofChildren]
    exact Nat.max_le.mpr ⟨before, by omega⟩
  | abandon _ _ ih =>
    rw [forestNesting_append]
    exact Nat.max_le.mpr ⟨before, ih levels (Nat.zero_le bound)⟩
  | wrap _ _ loose _ ih =>
    rw [forestNesting_append] at before
    rw [forestNesting_append, forestNesting_ofChildren, isEnclosing_of_isLoose loose,
      Bool.toNat_false, Nat.zero_add]
    obtain ⟨outside, inner⟩ := Nat.max_le.mp before
    exact Nat.max_le.mpr ⟨outside, ih levels inner⟩
  | chain _ _ _ ih =>
    rw [forestNesting_append, forestNesting_ofChildren]
    exact Nat.max_le.mpr ⟨before, by simpa [NodeKind.isEnclosing] using ih levels (Nat.zero_le _)⟩
  | within _ ih => exact ih levels before
  | @block _ _ row start _ _ _ _ _ _ _ ih =>
    have start : forestNesting (row ++ [.leaf start]) ≤ bound := by
      rw [forestNesting_append]
      exact Nat.max_le.mpr ⟨before, Nat.zero_le bound⟩
    rw [forestNesting_append, forestNesting_map_leaf]
    exact Nat.max_le.mpr ⟨ih levels start, Nat.zero_le bound⟩
  | nest _ above _ ih =>
    refine ih ?_ before
    rw [Bool.toNat_true]
    omega

theorem countP_places_root (options : ParseOptions) (seed : OperatorTable) (source : String) :
    ∀ placed ∈ (Parse.withTable options seed source).root.places,
      placed.above.countP NodeKind.isEnclosing ≤ maxDepth := by
  obtain ⟨span, row, stop, root, builds⟩ := Parse.builds_root options seed source
  have inside : forestNesting row ≤ maxDepth := builds.nesting (Nat.le_refl _) (Nat.zero_le _)
  intro placed member
  rw [root] at member
  refine Nat.le_trans (Tree.countP_forestPlaces [.wholeModule] _ placed member) ?_
  rw [forestNesting_append]
  simpa [NodeKind.isEnclosing, forestNesting, Tree.nesting] using inside

end Grammar

end Offside
