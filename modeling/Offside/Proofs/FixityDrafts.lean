import Offside.Proofs.FixityPasses

/-!
# Fixity declarations that break off

A fixity declaration that is malformed lacks some of its tokens.  What the
tokens that are there declare can still be read off the node that holds them,
also if its operator stands in a node that reports a conflict.  Of several
declarations of an operator the first is stored.
-/

namespace Offside

open DeclaredFixity

/-! ### Tables -/

namespace OperatorTable

theorem lookup_filter_of_ne {key other : Namespace × String} (differs : other ≠ key)
    (entries : List ((Namespace × String) × Fixity)) :
    (entries.filter fun entry => entry.1 ≠ key).lookup other = entries.lookup other := by
  induction entries with
  | nil => rfl
  | cons entry rest ih =>
    by_cases isKey : entry.1 = key
    · rw [List.filter_cons_of_neg (by simpa using isKey), ih, List.lookup_cons,
        beq_eq_false_iff_ne.mpr (isKey ▸ differs)]
    · rw [List.filter_cons_of_pos (by simpa using isKey), List.lookup_cons, List.lookup_cons, ih]

theorem stored?_insert (table : OperatorTable) (space other : Namespace)
    (operator name : String) (fixity : Fixity) :
    (table.insert space operator fixity).stored? other name =
      if (space, operator) = (other, name) then some fixity else table.stored? other name := by
  rw [stored?, insert, List.lookup_cons]
  split
  · next same => rw [if_pos (beq_iff_eq.mp same).symm]
  · next differs =>
      rw [beq_eq_false_iff_ne] at differs
      rw [if_neg differs.symm, lookup_filter_of_ne differs, stored?]

end OperatorTable

namespace DeclaredFixity

def first? (declared : List DeclaredFixity) (space : Namespace) (operator : String) :
    Option DeclaredFixity :=
  declared.find? fun other => (other.space, other.operator) = (space, operator)

variable {space : Namespace} {operator : String}

theorem first?_append (early late : List DeclaredFixity) :
    first? (early ++ late) space operator =
      (first? early space operator).or (first? late space operator) :=
  List.find?_append

theorem first?_singleton (declared : DeclaredFixity) :
    first? [declared] space operator =
      if (declared.space, declared.operator) = (space, operator) then some declared else none := by
  rw [first?, List.find?_singleton]
  simp only [decide_eq_true_eq]

theorem first?_cons (declared : DeclaredFixity) (rest : List DeclaredFixity) :
    first? (declared :: rest) space operator =
      if (declared.space, declared.operator) = (space, operator) then some declared
      else first? rest space operator := by
  rw [← List.singleton_append, first?_append, first?_singleton]
  split <;> rfl

theorem first?_filter_of_ne {declared : DeclaredFixity}
    (differs : (declared.space, declared.operator) ≠ (space, operator))
    (rest : List DeclaredFixity) :
    first? (rest.filter fun other =>
        (other.space, other.operator) ≠ (declared.space, declared.operator)) space operator =
      first? rest space operator := by
  induction rest with
  | nil => rfl
  | cons other rest ih =>
    by_cases dropped : (other.space, other.operator) = (declared.space, declared.operator)
    · rw [List.filter_cons_of_neg (by simpa only [decide_eq_true_eq, not_not] using dropped), ih,
        first?_cons, if_neg (dropped ▸ differs)]
    · rw [List.filter_cons_of_pos (by exact decide_eq_true dropped), first?_cons, first?_cons, ih]

theorem first?_firsts (declared : List DeclaredFixity) :
    first? (firsts declared) space operator = first? declared space operator := by
  induction declared with
  | nil => rfl
  | cons declared rest ih =>
    rw [firsts, first?_cons, first?_cons]
    split
    · rfl
    · next differs => rw [first?_filter_of_ne differs, ih]

end DeclaredFixity

namespace OperatorTable

theorem stored?_foldl_insert {declared : List DeclaredFixity}
    (distinct : declared.Pairwise fun one other =>
      (other.space, other.operator) ≠ (one.space, one.operator))
    (table : OperatorTable) (space : Namespace) (operator : String) :
    (declared.foldl (fun table found => table.insert found.space found.operator found.fixity)
        table).stored? space operator =
      ((first? declared space operator).map DeclaredFixity.fixity).or
        (table.stored? space operator) := by
  induction declared generalizing table with
  | nil => rfl
  | cons first rest ih =>
    obtain ⟨others, later⟩ := List.pairwise_cons.mp distinct
    rw [List.foldl_cons, ih later, stored?_insert, first?_cons]
    split
    · next same =>
        have notInRest : first? rest space operator = none := by
          rw [first?, List.find?_eq_none]
          intro other member
          rw [decide_eq_true_eq, ← same]
          exact others other member
        rw [notInRest]
        rfl
    · rfl

theorem stored?_declare (table : OperatorTable) (declared : List DeclaredFixity)
    (space : Namespace) (operator : String) :
    (table.declare declared).stored? space operator =
      ((first? declared space operator).map DeclaredFixity.fixity).or
        (table.stored? space operator) := by
  rw [declare, stored?_foldl_insert (pairwise_firsts declared), first?_firsts]

end OperatorTable

/-! ### Nodes of declarations -/

/--
The operator of a declaration stands in a node of its own, which reports that
it contradicts an earlier declaration.
-/
def Tree.ReportsConflict (tree : Tree) (operator : String) : Prop :=
  ∃ child ∈ tree.children, ∃ token, child.children = [.leaf token] ∧
    View.isOperator token.kind = true ∧ token.text = operator ∧ child.kind? = some .error ∧
    ∃ diagnostic, child.error? = some diagnostic ∧
      diagnostic.cause = .fixity (.conflictingFixity operator)

/-- The node holds the tokens of the draft, with a report around the operator or without. -/
structure Tree.Drafted (tree : Tree) (draft : FixityDraft) (conflicting : Bool) : Prop where
  kind : tree.kind? = some .fixityDecl
  direct : scanned tree.childTokens =
    draft.front ++ if conflicting = true then [] else draft.operator.toList
  leaves : scanned tree.leaves = draft.tokens
  inner : ∀ node ∈ forestNodes tree.children, node.kind? = some .error
  complete : forestNodes tree.children = [] → draft.IsComplete
  conflicts : ∀ operator ∈ draft.operator,
    (tree.ReportsConflict operator.text ↔ conflicting = true)

namespace DeclaredFixity

theorem isOfKind_of_ofTree? {node : Tree} {view : View.FixityDecl}
    (isView : View.FixityDecl.ofTree? node = some view) : node.isOfKind .fixityDecl = true := by
  by_contra other
  rw [View.FixityDecl.ofTree?, if_neg other] at isView
  cases isView

theorem isOfKind_of_ofNode? {node : Tree} {found : DeclaredFixity}
    (isFound : ofNode? node = some found) : node.isOfKind .fixityDecl = true :=
  decide_eq_true (Tree.ofNode?_spec isFound).1

theorem filterMap_ofNode?_filter (nodes : List Tree) :
    (nodes.filter (Tree.isOfKind .fixityDecl)).filterMap ofNode? = nodes.filterMap ofNode? := by
  rw [List.filterMap_filter]
  refine List.filterMap_congr fun node _ => ?_
  split
  · rfl
  · next other =>
      exact (Option.eq_none_iff_forall_ne_some.mpr
        fun _ isFound => other (isOfKind_of_ofNode? isFound)).symm

end DeclaredFixity

namespace Tree.Drafted

variable {tree : Tree} {draft : FixityDraft} {conflicting : Bool}
  (drafted : tree.Drafted draft conflicting)
include drafted

theorem isOfKind : tree.isOfKind .fixityDecl = true :=
  decide_eq_true drafted.kind

theorem ofTree? : View.FixityDecl.ofTree? tree = some (draft.view tree.span) := by
  refine ofTree?_of_direct drafted.direct drafted.isOfKind (fun token member => ?_) drafted.leaves
  split at member
  · cases member
  · exact Option.mem_toList.mp member

theorem ofNode? : DeclaredFixity.ofNode? tree = draft.declared? :=
  ofNode?_of_direct drafted.direct drafted.ofTree?

theorem isSome_ofNode? {view : View.FixityDecl}
    (isView : View.FixityDecl.ofTree? tree = some view) :
    (DeclaredFixity.ofNode? tree).isSome = (view.operator.isSome && view.precedence.isSome) := by
  rw [drafted.ofNode?, FixityDraft.declared?, ← Option.some.inj (drafted.ofTree?.symm.trans isView)]
  simp only [FixityDraft.view]
  cases draft.digits.bind fun digits => Literal.byte? digits.text <;> cases draft.operator <;> rfl

end Tree.Drafted

end Offside
