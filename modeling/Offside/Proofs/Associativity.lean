import Offside.Proofs.Precedence

/-!
# The side on which operators nest

A right operand takes the operators that bind more tightly than the operator in
front of it, and those that bind as tightly if that operator associates to the
right.  So of two operators that bind equally tightly the first is nested on
the left if they associate to the left.

The largest precedence is an exception.  There is none above it to ask for, so
a right operand takes operators of that precedence whatever their side, and
those that associate to the left are nested on the right.
-/

namespace Offside

namespace Grammar

variable {inner outer : Fixity}

theorem left_of_stopped (stopped : outer.precedence < leastRight inner)
    (chainable : Chainable inner outer) (same : inner.precedence = outer.precedence) :
    inner.associativity = outer.associativity ∧ outer.associativity = .left ∧
      outer.precedence < Fixity.maxPrecedence := by
  obtain ⟨sides, directed⟩ := chainable same
  refine ⟨sides, ?_⟩
  rw [leastRight, sides] at stopped
  cases side : outer.associativity with
  | none => exact absurd side directed
  | right =>
    rw [side] at stopped
    exact absurd stopped (Nat.not_lt_of_le (Nat.le_of_eq same))
  | left =>
    rw [side] at stopped
    exact ⟨rfl, Nat.lt_of_lt_of_le stopped (Nat.min_le_right _ _)⟩

/--
A right operand takes an operator that binds as tightly if both associate to
the right, or if nothing could bind more tightly.
-/
theorem right_of_least (bounded : outer.precedence ≤ Fixity.maxPrecedence)
    (least : leastRight outer ≤ inner.precedence) (chainable : Chainable outer inner)
    (same : inner.precedence = outer.precedence) :
    inner.associativity = outer.associativity ∧ (outer.associativity = .right ∨
      outer.associativity = .left ∧ outer.precedence = Fixity.maxPrecedence) := by
  obtain ⟨sides, directed⟩ := chainable same.symm
  refine ⟨sides.symm, ?_⟩
  rw [leastRight] at least
  cases side : outer.associativity with
  | none => exact absurd (sides.symm.trans side) directed
  | right => exact .inl rfl
  | left =>
    rw [side] at least
    dsimp only at least
    exact .inr ⟨rfl, by omega⟩

end Grammar

namespace Parse

open Grammar (Level)

theorem isNode_of_isOfKind {kind : NodeKind} {tree : Tree} (isKind : tree.isOfKind kind = true) :
    tree.isNode = true := by
  cases tree with
  | leaf token => simp [Tree.isOfKind, Tree.kind?] at isKind
  | node kind span error children => rfl

/--
Where operators nest that bind equally tightly.  All fixities of the text count
from its beginning, and nothing in it is malformed.  If a chain node and a chain
node of the same kind right below it bind equally tightly, they associate to
the same side.  The one below is the left operand if that is the left side and
the precedence is not the largest one.  It is the right operand if that is the
right side, and at the largest precedence in any case.
-/
theorem equal_precedence_nests {options : ParseOptions} {seed : OperatorTable}
    {isCancelled : Nat → Bool} {source : String} (collects : options.collectsFixities = true)
    (bounded : seed.Bounded) (clean : (run options seed isCancelled source).parse.hasErrors = false)
    {level : Level} {node child : Tree}
    (member : node ∈ (run options seed isCancelled source).parse.root.descendants)
    (isChain : node.isOfKind level.nodeKind = true) (below : child ∈ node.children)
    (isInner : child.isOfKind level.nodeKind = true) :
    let outer := level.fixityOf (run options seed isCancelled source).parse.operators node
    let inner := level.fixityOf (run options seed isCancelled source).parse.operators child
    inner.precedence = outer.precedence →
      ∃ left operator right, node.childNodes = [left, operator, right] ∧
        inner.associativity = outer.associativity ∧
        (child = left ∧ outer.associativity = .left ∧ outer.precedence < Fixity.maxPrecedence ∨
          child = right ∧ (outer.associativity = .right ∨
            outer.associativity = .left ∧ outer.precedence = Fixity.maxPrecedence)) := by
  intro outer inner same
  obtain ⟨left, operator, right, parts, isOperator, atLeft, atRight⟩ :=
    Job.chain_nodes_lean ⟨options, seed, isCancelled, source⟩ collects clean level node member
      isChain
  refine ⟨left, operator, right, parts, ?_⟩
  have isPart : child ∈ node.childNodes :=
    List.mem_filter.mpr ⟨below, isNode_of_isOfKind isInner⟩
  rw [parts, List.mem_cons, List.mem_cons, List.mem_singleton] at isPart
  rcases isPart with rfl | rfl | rfl
  · obtain ⟨stopped, chainable⟩ := atLeft isInner
    obtain ⟨sides, isLeft⟩ := Grammar.left_of_stopped stopped chainable same
    exact ⟨sides, .inl ⟨rfl, isLeft⟩⟩
  · have kinds := (of_decide_eq_true isOperator).symm.trans (of_decide_eq_true isInner)
    cases level <;> cases kinds
  · obtain ⟨least, chainable⟩ := atRight isInner
    have small : (level.fixityOf (run options seed isCancelled source).parse.operators
        node).precedence ≤ Fixity.maxPrecedence := by
      rw [Job.operators_eq_openingTable ⟨options, seed, isCancelled, source⟩ collects]
      exact (openingTable_bounded bounded options _).fixity _ _
    obtain ⟨sides, isRight⟩ := Grammar.right_of_least small least chainable same
    exact ⟨sides, .inr ⟨rfl, isRight⟩⟩

/-- Two operators that associate to the left nest on the left. -/
theorem equal_precedence_nests_left :
    let parse := (run {} .standard (fun _ => false) "x = a + b - c").parse
    OperatorTable.standard.Bounded ∧ parse.hasErrors = false ∧
      ∃ node ∈ parse.root.descendants, ∃ child ∈ node.children,
        Level.expr.fixityOf parse.operators node = ⟨.left, 6⟩ ∧
        Level.expr.fixityOf parse.operators child = ⟨.left, 6⟩ ∧
        ∃ operator right, node.childNodes = [child, operator, right] := by
  intro parse
  have bounded : OperatorTable.standard.Bounded := by decide +kernel
  have clean : parse.hasErrors = false := by decide +kernel
  have facts : (parse.root.descendants[3]?.bind fun node => node.childNodes[0]?.map fun child =>
      (node.isOfKind Level.expr.nodeKind, child.isOfKind Level.expr.nodeKind,
        Level.expr.fixityOf parse.operators node, Level.expr.fixityOf parse.operators child)) =
      some (true, true, ⟨.left, 6⟩, ⟨.left, 6⟩) := by decide +kernel
  obtain ⟨node, isNode, facts⟩ := Option.bind_eq_some_iff.mp facts
  obtain ⟨child, isChild, facts⟩ := Option.map_eq_some_iff.mp facts
  simp only [Prod.mk.injEq] at facts
  obtain ⟨isOuter, isInner, outer, inner⟩ := facts
  have member := List.mem_of_getElem? isNode
  have below := List.mem_of_mem_filter (List.mem_of_getElem? isChild)
  obtain ⟨left, operator, right, parts, -, ⟨rfl, -⟩ | ⟨-, side⟩⟩ :=
    equal_precedence_nests rfl bounded clean member isOuter below isInner
      ((congrArg Fixity.precedence inner).trans (congrArg Fixity.precedence outer).symm)
  · exact ⟨bounded, clean, node, member, child, below, outer, inner, operator, right, parts⟩
  · rw [outer] at side
    exact absurd side (by decide)

/-- Two operators of the largest precedence nest on the right though they associate to the left. -/
theorem left_associative_nests_right :
    let parse := (run {} .standard (fun _ => false) "infixl 255 f as +\nx = a + b + c").parse
    parse.hasErrors = false ∧
      parse.operators.fixity .value "+" = ⟨.left, Fixity.maxPrecedence⟩ ∧
      (parse.root.descendants.filter (Tree.isOfKind .exprBinary)).map
          (fun node => node.childNodes.map fun child => (child.kind?, child.text)) =
        [[(some .exprVar, "a"), (some .operator, "+"), (some .exprBinary, "b + c")],
          [(some .exprVar, "b"), (some .operator, "+"), (some .exprVar, "c")]] := by
  decide +kernel

end Parse

end Offside
