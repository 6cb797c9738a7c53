import Offside.Proofs.Lossless
import Offside.Proofs.SettledRows

/-!
# Separators of the module

What separates the items of a module should stand right below the root, or
next to the `else` of a chain of instances, however malformed the items are.
Declarations keep to that: none of them takes a separator that is not inside
a block of its own.  Error nodes do not.  Skipping passes a separator while a
bracket or a block that was skipped is open, so an opening bracket behind a
declaration that has ended takes the declarations that follow with it.
-/

namespace Offside

/--
The leaf separates items of the module: it is a separator, and the only blocks
open in front of it are those opened right below the root.
-/
def Placed.SeparatesItems (before : List Placed) (placed : Placed) : Prop :=
  placed.token.kind = .layoutSep ∧ opens before = opens (before.filter isDirect)

instance (before : List Placed) (placed : Placed) : Decidable (placed.SeparatesItems before) :=
  inferInstanceAs (Decidable (_ ∧ _))

theorem Placed.split_at (row : List Placed) (index : Fin row.length) :
    row = row.take index ++ row.get index :: row.drop (index + 1) := by
  simp

namespace Grammar

open Offside.Tree (forestLeaves forestNodes)

variable {sourceLength : Nat}

def Confines (row : List Tree) : Prop :=
  ∀ node ∈ forestNodes row, node.isOfKind .error = true → Confined node.leaves

theorem confines_append {left right : List Tree} :
    Confines (left ++ right) ↔ Confines left ∧ Confines right := by
  rw [Confines, Tree.forestNodes_append, List.forall_mem_append, Confines, Confines]

theorem confines_ofChildren {kind : NodeKind} {error : Option Diagnostic} {openedAt : Nat}
    {children : List Tree} :
    Confines [.ofChildren kind error openedAt children] ↔
      (kind = .error → Confined (forestLeaves children)) ∧ Confines children := by
  rw [Confines, forestNodes, Tree.ofChildren, Tree.nodes, forestNodes, List.append_nil,
    List.forall_mem_cons]
  refine and_congr_left fun _ => imp_congr_left ?_
  simp [Tree.isOfKind, Tree.kind?]

theorem Grafts.confines {allowed : TokenKind → Bool} {pending left : List Token}
    {row : List Tree} (grafts : Grafts sourceLength allowed pending row left) : Confines row := by
  induction grafts with
  | done => nofun
  | leaf _ _ _ ih => exact ih
  | fault openedAt _ _ _ _ ih =>
    rw [← List.singleton_append]
    exact confines_append.mpr ⟨confines_ofChildren.mpr
      ⟨fun _ => confined_of_length_le (Nat.le_refl 1), nofun⟩, ih⟩

theorem Builds.confines {depth : Nat} {phase : Phase} {first second : List Tree × List Token}
    (builds : Builds sourceLength depth phase first second) (confines : Confines first.1) :
    Confines second.1 := by
  induction builds with
  | stay => exact confines
  | trans _ _ left right => exact right (left confines)
  | graft _ _ _ grafts | join _ _ grafts =>
    exact confines_append.mpr ⟨confines, grafts.confines⟩
  | skip _ _ _ _ _ _ _ grafts _ confined =>
    exact confines_append.mpr
      ⟨confines, confines_ofChildren.mpr ⟨fun _ => confined, grafts.confines⟩⟩
  | report _ _ _ _ _ _ _ _ plain =>
    obtain ⟨before, inner⟩ := confines_append.mp confines
    refine confines_append.mpr ⟨before, confines_ofChildren.mpr ⟨fun _ => ?_, inner⟩⟩
    refine confined_of_no_separator fun token member isSep => ?_
    have isMark := plain token member
    rw [isSep] at isMark
    cases isMark
  | node _ _ _ loose _ ih =>
    refine confines_append.mpr ⟨confines, confines_ofChildren.mpr ⟨?_, ih nofun⟩⟩
    rintro rfl
    cases loose
  | enclose _ _ construct _ ih =>
    refine confines_append.mpr ⟨confines, confines_ofChildren.mpr ⟨?_, ih nofun⟩⟩
    rintro rfl
    cases construct
  | chain _ _ _ ih =>
    exact confines_append.mpr ⟨confines, confines_ofChildren.mpr ⟨by rintro ⟨⟩, ih nofun⟩⟩
  | abandon _ _ ih => exact confines_append.mpr ⟨confines, ih nofun⟩
  | wrap _ _ loose _ ih =>
    obtain ⟨before, inner⟩ := confines_append.mp confines
    refine confines_append.mpr ⟨before, confines_ofChildren.mpr ⟨?_, ih inner⟩⟩
    rintro rfl
    cases loose
  | nest _ _ _ ih | within _ ih => exact ih confines
  | block _ _ _ _ ih =>
    refine confines_append.mpr ⟨ih (confines_append.mpr ⟨confines, nofun⟩), ?_⟩
    rw [Confines, Tree.forestNodes_map_leaf]
    nofun

end Grammar

theorem Job.settled_root_run (job : Job) (finished : job.run.cancelled = false) :
    ∃ span row, job.run.parse.root = .node .wholeModule span none row ∧
      (∀ child ∈ row, Tree.Seated child) ∧ Tree.Balanced row := by
  rw [job.run_eq] at finished
  obtain ⟨span, row, stop, root, builds⟩ := job.builds_run finished
  have settled := (builds.settled rfl (Grammar.settled_nil _ _)).snoc
    (Tree.seated_leaf (Token.virtual .eof stop)) nofun
    fun _ => ⟨(nofun : Grammar.AtEnd []), rfl⟩
  exact ⟨span, _, root, settled.fits, settled.balanced⟩

theorem Job.confined_of_isError (job : Job) {node : Tree}
    (member : node ∈ job.run.parse.root.descendants)
    (isError : node.isOfKind .error = true) : Grammar.Confined node.tokens := by
  obtain ⟨span, children, nodes⟩ := job.descendants_root_run
  obtain ⟨row, ends, shows, builds⟩ := job.builds_shown
  rw [nodes, shows, Tree.forestNodes_append, Tree.forestNodes_map_leaf, List.append_nil] at member
  rw [Tree.tokens_eq_leaves]
  rcases List.mem_cons.mp member with rfl | inner
  · cases isError
  · exact builds.confines nofun node inner isError

namespace Parse

/--
In the tree of a run that was not given up, a separator stands right below the
root, or in a chain of instances next to its `else`, if and only if it has not
been skipped and every block open in front of it was opened right below the
root or among skipped tokens.  So one that separates items of the module does
if and only if it has not been skipped and the tokens skipped in front of it
open as many blocks as they close.  An error node holds a separator only as
the single token that the grammar sees there, or behind a block or a bracket
that was opened in the node and not closed.
-/
theorem separator_isTop_iff (options : ParseOptions) (seed : OperatorTable)
    (isCancelled : Nat → Bool) (source : String)
    (finished : (run options seed isCancelled source).cancelled = false) :
    (∀ before placed after,
      (run options seed isCancelled source).parse.root.places = before ++ placed :: after →
      placed.token.kind = .layoutSep →
        (placed.IsTop before after ↔ placed.isSkipped = false ∧
          Placed.opens before = Placed.opens (before.filter Placed.isSkipped) +
            Placed.opens (before.filter Placed.isDirect))) ∧
      (∀ before placed after,
        (run options seed isCancelled source).parse.root.places =
          before ++ placed :: after →
        placed.SeparatesItems before →
          (placed.IsTop before after ↔ placed.isSkipped = false ∧
            Placed.opens (before.filter Placed.isSkipped) = 0)) ∧
      ∀ node ∈ (run options seed isCancelled source).parse.root.descendants,
        node.isOfKind .error = true → Grammar.Confined node.tokens := by
  obtain ⟨span, row, root, seated, balanced⟩ :=
    Job.settled_root_run ⟨options, seed, isCancelled, source⟩ finished
  have all {before after : List Placed} {placed : Placed}
      (split : (run options seed isCancelled source).parse.root.places =
        before ++ placed :: after)
      (isSep : placed.token.kind = .layoutSep) :
      placed.IsTop before after ↔ placed.isSkipped = false ∧
        Placed.opens before = Placed.opens (before.filter Placed.isSkipped) +
          Placed.opens (before.filter Placed.isDirect) := by
    rw [root, Tree.places, Tree.placesIn] at split
    exact Tree.isTop_iff seated balanced split isSep
  refine ⟨fun before placed after split isSep => all split isSep,
    fun before placed after split separates => ?_,
    fun node member isError =>
      Job.confined_of_isError ⟨options, seed, isCancelled, source⟩ member isError⟩
  obtain ⟨isSep, direct⟩ := separates
  rw [all split isSep, direct]
  refine and_congr_right fun _ => ?_
  omega

/-- The separator in front of an `else` belongs to the module. -/
theorem separator_isTop_next_to_else :
    ∃ before placed after,
      (run {} .standard (fun _ => false)
          "module M where\ninstance c :: C\nelse instance d :: D").parse.root.places =
        before ++ placed :: after ∧
      placed.SeparatesItems before ∧ placed.IsTop before after := by
  have split := Placed.split_at (run {} .standard (fun _ => false)
    "module M where\ninstance c :: C\nelse instance d :: D").parse.root.places
    ⟨15, by decide +kernel⟩
  refine ⟨_, _, _, split, by decide +kernel, ?_⟩
  exact ((separator_isTop_iff {} .standard _ _ (by decide +kernel)).2.1 _ _ _ split
    (by decide +kernel)).mpr (by decide +kernel)

/-- Behind a bracket that was skipped, the separator of the next item is skipped as well. -/
theorem separator_skipped_behind_bracket :
    ∃ before placed after,
      (run {} .standard (fun _ => false) "x = 1 ) (\ny = 1").parse.root.places =
        before ++ placed :: after ∧
      placed.SeparatesItems before ∧ ¬ placed.IsTop before after := by
  have split := Placed.split_at (run {} .standard (fun _ => false)
    "x = 1 ) (\ny = 1").parse.root.places ⟨11, by decide +kernel⟩
  refine ⟨_, _, _, split, by decide +kernel, ?_⟩
  have above : ((run {} .standard (fun _ => false) "x = 1 ) (\ny = 1").parse.root.places.get
      ⟨11, by decide +kernel⟩).above = [.error, .wholeModule] := by
    decide +kernel
  rintro (direct | ⟨chained, -⟩)
  · exact absurd (above.symm.trans direct) (by decide)
  · exact absurd (above.symm.trans chained) (by decide)

end Parse

end Offside
