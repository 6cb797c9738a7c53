import Offside.Proofs.Lossless
import Offside.Proofs.StepRelations

/-!
# Passing fixities on

If the fixities of a text are collected first, they all count from its
beginning and no declaration changes them on the way.  So a parse returns the
table that it started with: the one given, with the first declaration of every
operator on top.  Storing the same declarations once more changes nothing, and
a second parse with the table that the first has returned is the first again.
-/

namespace Offside

/-! ### Storing declarations twice -/

theorem DeclaredFixity.pairwise_firsts (declared : List DeclaredFixity) :
    (firsts declared).Pairwise fun one other =>
      (other.space, other.operator) ≠ (one.space, one.operator) := by
  induction declared with
  | nil => exact .nil
  | cons declared rest ih =>
    rw [firsts]
    refine .cons (fun other member => ?_) (ih.filter _)
    exact of_decide_eq_true (List.mem_filter.mp member).2

namespace OperatorTable

theorem entries_foldl_insert {found : List DeclaredFixity}
    (distinct : found.Pairwise fun one other =>
      (other.space, other.operator) ≠ (one.space, one.operator)) (table : OperatorTable) :
    (found.foldl (fun table one => table.insert one.space one.operator one.fixity) table).entries =
      (found.map fun one => ((one.space, one.operator), one.fixity)).reverse ++
        table.entries.filter fun entry =>
          found.all fun one => entry.1 ≠ (one.space, one.operator) := by
  induction found generalizing table with
  | nil => simp
  | cons first rest ih =>
    obtain ⟨others, distinct⟩ := List.pairwise_cons.mp distinct
    have stays : (rest.all fun one =>
        decide ((first.space, first.operator) ≠ (one.space, one.operator))) = true :=
      List.all_eq_true.mpr fun one member => decide_eq_true (others one member).symm
    rw [List.foldl_cons, ih distinct, insert, List.filter_cons, if_pos stays, List.filter_filter,
      List.map_cons, List.reverse_cons, List.append_assoc, List.singleton_append]
    simp only [List.all_cons, Bool.and_comm]

theorem declare_declare (table : OperatorTable) (declared : List DeclaredFixity) :
    (table.declare declared).declare declared = table.declare declared := by
  have distinct := DeclaredFixity.pairwise_firsts declared
  refine congrArg OperatorTable.mk ?_
  show ((table.declare declared).declare declared).entries = (table.declare declared).entries
  have replaced : ((DeclaredFixity.firsts declared).map fun one =>
      ((one.space, one.operator), one.fixity)).reverse.filter (fun entry =>
        (DeclaredFixity.firsts declared).all fun one => entry.1 ≠ (one.space, one.operator)) =
      [] := by
    rw [List.filter_eq_nil_iff]
    intro entry member kept
    obtain ⟨one, isOne, rfl⟩ := List.mem_map.mp (List.mem_reverse.mp member)
    exact of_decide_eq_true (List.all_eq_true.mp kept one isOne) rfl
  rw [declare, entries_foldl_insert distinct, declare, entries_foldl_insert distinct,
    List.filter_append, replaced, List.nil_append, List.filter_filter]
  simp only [Bool.and_self]

end OperatorTable

/-! ### Runs -/

namespace Grammar

theorem steps_operators {setting : Setting} (atOnce : setting.declaresInOrder = false) :
    RelatesSteps setting fun before after => after.operators = before.operators where
  refl _ := rfl
  trans first second := second.trans first
  takeTrivia state := by
    obtain ⟨ahead, trail, reached, taken⟩ := takeTrivia_eq setting state
    rw [taken]
  bump state := by
    cases found : state.ahead with
    | nil => rw [bump_of_ahead_nil setting found]
    | cons lexeme rest =>
      obtain ⟨ahead, trail, reached, taken⟩ := takeTrivia_eq setting state
      rw [bump_of_cons setting found, taken]
      rfl
  mark _ _ := rfl
  report cause expected state := by
    obtain ⟨trail, lastReport, reported⟩ := report_eq setting state cause expected
    rw [reported]
  declare space operator fixity state := by
    rw [State.declare, atOnce]
    split <;> rfl
  deepen _ _ := rfl
  leave _ := rfl
  forget _ _ := rfl
  poll _ _ := rfl

end Grammar

namespace Job

variable (job : Job) (collects : job.options.collectsFixities = true)
include collects

theorem operators_eq_openingTable :
    job.run.parse.operators = Parse.openingTable job.options job.seed job.tokens := by
  have atOnce : job.scene.setting.declaresInOrder = false := by
    simp [scene, Parse.setting, collects]
  rw [operators_run]
  exact (Grammar.steps_operators atOnce).execute Grammar.wholeModule job.opening

/-- A parse goes on from the table that another has returned as from the table of that one. -/
theorem run_operators (again : Nat → Bool) :
    Parse.run job.options job.run.parse.operators again job.source =
      Parse.run job.options job.seed again job.source := by
  have same : Parse.openingTable job.options
      (Parse.openingTable job.options job.seed job.tokens) job.tokens =
        Parse.openingTable job.options job.seed job.tokens := by
    simp only [Parse.openingTable, collects, if_true, OperatorTable.declare_declare]
  rw [job.operators_eq_openingTable collects]
  unfold Parse.run
  dsimp only
  rw [same]

end Job

namespace Parse

/--
If the fixities of a text are collected first, parsing it again with the table
that the first parse has returned gives the same tree, the same errors and the
same table.
-/
theorem run_returned_table (options : ParseOptions) (seed : OperatorTable)
    (isCancelled : Nat → Bool) (source : String) (collects : options.collectsFixities = true)
    {first second : Parse} (isFirst : (run options seed isCancelled source).parse = first)
    (isSecond : (run options first.operators isCancelled source).parse = second) :
    second.root = first.root ∧ second.errors = first.errors ∧
      second.operators = first.operators := by
  have same : second = first := by
    rw [← isSecond, ← isFirst]
    exact congrArg ParseRun.parse
      (Job.run_operators ⟨options, seed, isCancelled, source⟩ collects isCancelled)
  rw [same]
  exact ⟨rfl, rfl, rfl⟩

/-- One operator is declared twice, differently, and another takes the place of a standard one. -/
theorem run_returned_table_conflicting :
    (run {} .standard (fun _ => false)
        "infixl 6 f as <?>\ninfixr 2 g as <?>\ninfixr 7 h as +").parse.errors ≠ [] ∧
      (run {} .standard (fun _ => false)
        "infixl 6 f as <?>\ninfixr 2 g as <?>\ninfixr 7 h as +").parse.operators ≠ .standard ∧
      let first := (run {} .standard (fun _ => false)
        "infixl 6 f as <?>\ninfixr 2 g as <?>\ninfixr 7 h as +").parse
      let second := (run {} first.operators (fun _ => false)
        "infixl 6 f as <?>\ninfixr 2 g as <?>\ninfixr 7 h as +").parse
      second.root = first.root ∧ second.errors = first.errors ∧
        second.operators = first.operators :=
  ⟨by decide +kernel, by decide +kernel, run_returned_table {} .standard _ _ rfl rfl rfl⟩

end Parse

end Offside
