import Offside.Proofs.FixityLedger
import Offside.Proofs.Precedence
import Offside.Proofs.RecoveryPoints

/-!
# Declarations that are lost

A declaration in which nothing is reported is complete, so a scan finds it if
its precedence is not too large.  A larger precedence is dropped and nobody says
so.  And a scan takes everything for a declaration that looks like one, so what
it finds first for an operator need not be what the text declares.

The view of such a declaration gives back its parts.  It takes the first name for
the target, unless that is spelled like the word between target and operator, so
a target that is spelled like this is lost.
-/

namespace Offside

open DeclaredFixity

/-! ### Precedences -/

theorem Literal.byte?_eq_some_iff {text : String} {value : Nat} :
    byte? text = some value ↔
      integer? text = some (value : Int) ∧ value ≤ Fixity.maxPrecedence := by
  constructor
  · intro read
    refine ⟨?_, byte?_le read⟩
    rw [byte?] at read
    split at read
    · next other isInteger =>
        split at read
        · rw [isInteger, Option.some.inj read]
          rfl
        · cases read
    · cases read
  · rintro ⟨isInteger, small⟩
    rw [byte?, isInteger]
    exact if_pos (Nat.lt_succ_of_le small)

namespace FixityRow

def IsStored (row : FixityRow) (table : OperatorTable) : Prop :=
  ∃ precedence : Nat, Literal.integer? row.digits.text = some (precedence : Int) ∧
    table.stored? (if row.space.isSome then .type else .value) row.operator.text =
      some ⟨row.associativity, precedence⟩

theorem isStored_iff (row : FixityRow) {table : OperatorTable} (bounded : table.Bounded) :
    row.IsStored table ↔ ∃ declared ∈ row.declared?,
      table.stored? declared.space declared.operator = some declared.fixity := by
  constructor
  · rintro ⟨precedence, isInteger, stored⟩
    have small : precedence ≤ Fixity.maxPrecedence := bounded.stored? stored
    exact ⟨_, Option.map_eq_some_iff.mpr
      ⟨precedence, Literal.byte?_eq_some_iff.mpr ⟨isInteger, small⟩, rfl⟩, stored⟩
  · rintro ⟨declared, isDeclared, stored⟩
    obtain ⟨precedence, isByte, rfl⟩ := Option.map_eq_some_iff.mp isDeclared
    exact ⟨precedence, (Literal.byte?_eq_some_iff.mp isByte).1, stored⟩

theorem mem_collect (row : FixityRow) (before after : List Token) :
    ∀ declared ∈ row.declared?, declared ∈ collect (before ++ (row.tokens ++ after)) := by
  intro declared isDeclared
  induction before with
  | nil =>
    rw [List.nil_append, row.collect_tokens]
    exact List.mem_append_left _ (Option.mem_toList.mpr isDeclared)
  | cons token rest ih =>
    exact List.mem_append_right _ ih

end FixityRow

theorem DeclaredFixity.isSome_first? {all : List DeclaredFixity} {declared : DeclaredFixity}
    (member : declared ∈ all) : ∃ first, first? all declared.space declared.operator = some first :=
  Option.isSome_iff_exists.mp (List.find?_isSome.mpr ⟨declared, member, decide_eq_true rfl⟩)

variable {node : Tree}

theorem Tree.leaves_of_mem_nodes {tree : Tree} (member : node ∈ tree.nodes) :
    ∃ before after, tree.leaves = before ++ (node.leaves ++ after) := by
  rw [← map_fst_followedIn []] at member
  obtain ⟨pair, inTree, rfl⟩ := List.mem_map.mp member
  obtain ⟨before, after, -, split⟩ := leaves_of_followedIn [] tree pair inTree
  exact ⟨before, after, split⟩

/-! ### Whole texts -/

namespace Job

variable (job : Job)

theorem exists_row_of_quiet (member : node ∈ job.run.parse.root.descendants)
    (isDecl : node.isOfKind .fixityDecl = true)
    (quiet : ∀ inner ∈ node.descendants, inner.isOfKind .error = false) :
    ∃ row : FixityRow, node.significantTokens = row.tokens ∧ ofNode? node = row.declared? ∧
      View.FixityDecl.ofTree? node = some (row.draft.view node.span) := by
  obtain ⟨-, -, -, ledger⟩ := job.ending_recorded
  rw [← job.filter_descendants_root_run] at ledger
  obtain ⟨draft, conflicting, drafted⟩ :=
    ledger.drafted node (List.mem_filter.mpr ⟨member, isDecl⟩)
  have bare : Tree.forestNodes node.children = [] := by
    refine List.eq_nil_iff_forall_not_mem.mpr fun inner below => ?_
    have isInner : inner ∈ node.descendants := by
      rw [Tree.descendants_eq_nodes]
      cases node with
      | leaf token => cases below
      | node kind span error children => exact List.mem_cons_of_mem _ below
    exact of_decide_eq_false (quiet inner isInner) (drafted.inner inner below)
  obtain ⟨row, rfl⟩ := (drafted.complete bare).exists_row
  refine ⟨row, ?_, drafted.ofNode?.trans row.declared?_draft, drafted.ofTree?⟩
  rw [← row.tokens_draft, ← drafted.leaves, Tree.significantTokens, Tree.tokens_eq_leaves]
  rfl

theorem mem_scan_of_row (member : node ∈ job.run.parse.root.descendants)
    {row : FixityRow} (isRow : node.significantTokens = row.tokens) :
    ∀ declared ∈ row.declared?, declared ∈ scan job.tokens := by
  rw [Tree.descendants_eq_nodes] at member
  obtain ⟨before, after, split⟩ := Tree.leaves_of_mem_nodes member
  have together : scanned job.tokens = scanned before ++ (row.tokens ++ scanned after) := by
    rw [← job.leaves_root_run, split, scanned_append, scanned_append, ← isRow,
      Tree.significantTokens, Tree.tokens_eq_leaves]
    rfl
  intro declared isDeclared
  show declared ∈ collect (scanned job.tokens)
  rw [together]
  exact row.mem_collect _ _ declared isDeclared

end Job

namespace Parse

/--
A fixity declaration in which nothing is reported is complete, and a scan of the
text finds what it declares if its precedence is not too large.  The
declaration is stored if and only if its precedence is not too large and what
the scan finds first for the operator says the same.
-/
theorem declaration_stored_iff (source : String) (node : Tree)
    (member : node ∈ (ofSource source).root.descendants) (isDecl : node.isOfKind .fixityDecl = true)
    (quiet : ∀ inner ∈ node.descendants, inner.isOfKind .error = false) :
    ∃ row : FixityRow, node.significantTokens = row.tokens ∧ ofNode? node = row.declared? ∧
      (∀ declared ∈ row.declared?, declared ∈ scan (Layout.tokens 8 source)) ∧
      (row.IsStored (ofSource source).operators ↔ ∃ declared ∈ row.declared?,
        ∃ first ∈ first? (scan (Layout.tokens 8 source)) declared.space declared.operator,
          first.fixity = declared.fixity) := by
  have ran : ofSource source = (run {} .standard (fun _ => false) source).parse := rfl
  rw [ran] at member ⊢
  let job := Job.ofSource source
  obtain ⟨row, isRow, declares, -⟩ := job.exists_row_of_quiet member isDecl quiet
  have found : ∀ declared ∈ row.declared?, declared ∈ scan (Layout.tokens 8 source) :=
    job.mem_scan_of_row member isRow
  have bounded : OperatorTable.standard.Bounded := by decide +kernel
  have isTable : (run {} .standard (fun _ => false) source).parse.operators =
      OperatorTable.standard.declare (scan (Layout.tokens 8 source)) :=
    job.operators_eq_openingTable rfl
  have small : (OperatorTable.standard.declare (scan (Layout.tokens 8 source))).Bounded :=
    bounded.declare (collect_le _)
  refine ⟨row, isRow, declares, found, ?_⟩
  rw [isTable, row.isStored_iff small]
  refine exists_congr fun declared => and_congr_right fun isDeclared => ?_
  obtain ⟨first, isFirst⟩ := isSome_first? (found declared isDeclared)
  rw [OperatorTable.stored?_declare, isFirst]
  simp

/--
The label of a selection looks like the beginning of a declaration, and so the
declaration behind it is lost.
-/
theorem declaration_stored_iff_selecting :
    ∃ node ∈ (ofSource "x = r.infixr 0 f as + 1\ninfixl 6 g as +").root.descendants,
      node.isOfKind .fixityDecl = true ∧
      (∀ inner ∈ node.descendants, inner.isOfKind .error = false) ∧
      ∃ row : FixityRow, node.significantTokens = row.tokens ∧
        row.declared? = some ⟨.value, "+", ⟨.left, 6⟩, 24⟩ ∧
        ¬ row.IsStored (ofSource "x = r.infixr 0 f as + 1\ninfixl 6 g as +").operators := by
  have last : (ofSource "x = r.infixr 0 f as + 1\ninfixl 6 g as +").root.descendants.getLast?.bind
      ofNode? = some ⟨.value, "+", ⟨.left, 6⟩, 24⟩ := by decide +kernel
  obtain ⟨node, isLast, isFound⟩ := Option.bind_eq_some_iff.mp last
  have member := List.mem_of_getLast? isLast
  have isDecl := isOfKind_of_ofNode? isFound
  have quiet : ∀ outer ∈ (ofSource "x = r.infixr 0 f as + 1\ninfixl 6 g as +").root.descendants,
      ∀ inner ∈ outer.descendants, inner.isOfKind .error = false := by decide +kernel
  have first : first? (scan (Layout.tokens 8 "x = r.infixr 0 f as + 1\ninfixl 6 g as +")) .value
      "+" = some ⟨.value, "+", ⟨.right, 0⟩, 6⟩ := by decide +kernel
  obtain ⟨row, isRow, declares, -, stored⟩ :=
    declaration_stored_iff _ node member isDecl (quiet node member)
  rw [isFound] at declares
  refine ⟨node, member, isDecl, quiet node member, row, isRow, declares.symm, ?_⟩
  rw [stored, ← declares]
  rintro ⟨declared, isDeclared, other, isFirst, same⟩
  cases isDeclared
  cases first.symm.trans isFirst
  cases same

/-- A precedence that is too large is dropped, and nothing is reported. -/
theorem wide_precedence_dropped :
    (∀ node ∈ (ofSource "infixl 999 add as +").root.descendants,
        node.isOfKind .error = false) ∧
      (ofSource "infixl 999 add as +").root.descendants.map Tree.kind? =
        [some .wholeModule, some .fixityDecl] ∧
      (ofSource "infixl 999 add as +").root.significantTokens.map Token.text =
        ["infixl", "999", "add", "as", "+"] ∧
      Literal.integer? "999" = some 999 ∧
      (ofSource "infixl 999 add as +").operators.stored? .value "+" = some ⟨.left, 6⟩ := by
  decide +kernel

/--
The view of a fixity declaration in which nothing is reported has what its tokens
say: the associativity of the keyword, whether `type` is there, the operator, the
precedence if and only if it is not too large, and the target unless it is
spelled like the word behind it.
-/
theorem view_of_declaration (options : ParseOptions) (seed : OperatorTable) (source : String)
    (node : Tree) (member : node ∈ (withTable options seed source).root.descendants)
    (isDecl : node.isOfKind .fixityDecl = true)
    (quiet : ∀ inner ∈ node.descendants, inner.isOfKind .error = false) :
    ∃ (row : FixityRow) (view : View.FixityDecl), node.significantTokens = row.tokens ∧
      View.FixityDecl.ofTree? node = some view ∧
      view.associativity = some row.associativity ∧ view.isType = row.space.isSome ∧
      view.operator = some row.operator.text ∧
      view.target = (if row.target.text = "as" then none else some row.target.text) ∧
      ∀ precedence : Nat, view.precedence = some precedence ↔
        Literal.integer? row.digits.text = some (precedence : Int) ∧ precedence ≤ 255 := by
  let job : Job := ⟨options, seed, fun _ => false, source⟩
  obtain ⟨row, isRow, -, isView⟩ := job.exists_row_of_quiet member isDecl quiet
  refine ⟨row, _, isRow, isView, rfl, rfl, rfl, ?_, fun _ => Literal.byte?_eq_some_iff⟩
  show (some row.target.text).filter (fun name => name ≠ "as") = _
  rw [Option.filter_some]
  by_cases same : row.target.text = "as" <;> simp [same]

/-- The view of a declaration for types whose target is lost. -/
theorem view_of_declaration_as :
    ∃ node ∈ (ofSource "infixr 0x4 type as as ~>").root.descendants,
      node.isOfKind .fixityDecl = true ∧
      (∀ inner ∈ node.descendants, inner.isOfKind .error = false) ∧
      ∃ row : FixityRow, node.significantTokens = row.tokens ∧ row.space.isSome = true ∧
        row.target.text = "as" ∧ Literal.integer? row.digits.text = some 4 := by
  have last : (ofSource "infixr 0x4 type as as ~>").root.descendants.getLast?.bind
      View.FixityDecl.ofTree? = some ⟨some .right, some 4, none, some "~>", true, ⟨0, 24⟩⟩ := by
    decide +kernel
  have quiet : ∀ outer ∈ (ofSource "infixr 0x4 type as as ~>").root.descendants,
      ∀ inner ∈ outer.descendants, inner.isOfKind .error = false := by decide +kernel
  obtain ⟨node, isLast, isFound⟩ := Option.bind_eq_some_iff.mp last
  have member := List.mem_of_getLast? isLast
  have isDecl := isOfKind_of_ofTree? isFound
  obtain ⟨row, view, isRow, isView, -, isType, -, target, precedence⟩ :=
    view_of_declaration {} .standard _ node member isDecl (quiet node member)
  cases isFound.symm.trans isView
  refine ⟨node, member, isDecl, quiet node member, row, isRow, isType.symm, ?_,
    ((precedence 4).mp rfl).1⟩
  by_contra other
  rw [if_neg other] at target
  cases target

/-- A target that is spelled like the word behind it is lost, and nothing is reported. -/
theorem as_target_lost :
    (∀ node ∈ (ofSource "infixl 6 as as +").root.descendants, node.isOfKind .error = false) ∧
      (ofSource "infixl 6 as as +").root.significantTokens.map Token.text =
        ["infixl", "6", "as", "as", "+"] ∧
      View.FixityDecl.within (ofSource "infixl 6 as as +").root =
        [⟨some .left, some 6, none, some "+", false, ⟨0, 16⟩⟩] := by
  decide +kernel

end Parse

end Offside
