import Offside.Proofs.SpelledModules

/-!
# Soundness of the grammar

In the tree of a text in which nothing is malformed, the children of every
node, apart from blanks and comments, spell the production of its kind.
-/

namespace Offside

namespace Parse

open Offside.Phrase

/--
If a parse is finished and nothing in the text is malformed, the children of
every node, apart from blanks and comments, spell the production of its kind.
-/
theorem children_spell_production (options : ParseOptions) (seed : OperatorTable)
    (isCancelled : Nat → Bool) (source : String)
    (finished : (run options seed isCancelled source).cancelled = false)
    (clean : (run options seed isCancelled source).parse.hasErrors = false) :
    ∀ node ∈ (run options seed isCancelled source).parse.root.descendants,
      ∃ kind, node.kind? = some kind ∧ Tree.shapes node.children ∈ production kind := by
  obtain ⟨children, root, formed⟩ :=
    Job.formed_root ⟨options, seed, isCancelled, source⟩ finished clean
  rw [Tree.descendants_eq_nodes]
  intro node member
  obtain ⟨kind, isKind, rows, -⟩ := Tree.formed_nodes root formed node member
  exact ⟨kind, isKind, rows.1⟩

/-- A record, an array, an application and a negation. -/
theorem children_spell_production_nested :
    (run {} .standard (fun _ => false)
        "x = \x7b a: [f b, -c], d \x7d").cancelled = false ∧
      (run {} .standard (fun _ => false)
        "x = \x7b a: [f b, -c], d \x7d").parse.hasErrors = false ∧
      ((run {} .standard (fun _ => false)
        "x = \x7b a: [f b, -c], d \x7d").parse.root.descendants.filter
          fun node => node.kind?.any NodeKind.isExpr).length = 7 ∧
      ∀ node ∈ (run {} .standard (fun _ => false)
          "x = \x7b a: [f b, -c], d \x7d").parse.root.descendants,
        ∃ kind, node.kind? = some kind ∧ Tree.shapes node.children ∈ production kind :=
  ⟨by decide +kernel, by decide +kernel, by decide +kernel,
    children_spell_production {} .standard _ _ (by decide +kernel) (by decide +kernel)⟩

end Parse

namespace Phrase

theorem getLast?_of_typed {accepts : NodeKind → Bool} {row : List Shape}
    (typed : row ∈ (expr * (token .doubleColon * nodeIn accepts) : Language Shape)) :
    ∃ kind children, row.getLast? = some (.node kind children) ∧ accepts kind = true := by
  obtain ⟨front, -, _, ⟨middle, -, _, ⟨_, ⟨kind, children, rfl, accepted⟩, rfl⟩, rfl⟩, rfl⟩ := typed
  exact ⟨kind, children, by simp, accepted⟩

end Phrase

namespace Parse

open Offside.Phrase

/--
Constraints in parentheses stand where a type can, and nothing is reported,
although they are no type.
-/
theorem typed_by_constraints :
    (ofSource "x = y :: (A, B)").hasErrors = false ∧
      ∃ node ∈ (ofSource "x = y :: (A, B)").root.descendants,
        node.kind? = some .exprTyped ∧
          Tree.shapes node.children ∉
            (expr * (token .doubleColon * nodeIn NodeKind.isType) : Language Shape) := by
  have found : ((ofSource "x = y :: (A, B)").root.descendants.any fun node =>
      node.kind? = some .exprTyped &&
        (Tree.shapes node.children).getLast?.any fun
          | .node kind _ => kind = .constraints
          | .leaf _ => false) = true := by
    decide +kernel
  refine ⟨by decide +kernel, ?_⟩
  obtain ⟨node, member, holds⟩ := List.any_eq_true.mp found
  rw [Bool.and_eq_true, decide_eq_true_eq] at holds
  refine ⟨node, member, holds.1, fun typed => ?_⟩
  obtain ⟨kind, children, last, accepted⟩ := getLast?_of_typed typed
  have isConstraints := holds.2
  rw [last, Option.any_some, decide_eq_true_eq] at isConstraints
  rw [isConstraints] at accepted
  cases accepted

end Parse

end Offside
