import Offside.Fixity.Table
import Offside.Grammar.Chain
import Offside.Tree.Walk

/-!
# Operators with their operands

A chain node has three nodes below it: the left operand, an operator node and
the right operand.  An operand that is a chain node of the same kind must bind
more tightly than the chain around it, or as tightly with both operators
associating to the same side.
-/

namespace Offside

/-- What the tokens of an operator spell: the name between backticks, or the only token. -/
def Token.operatorText : List Token → String
  | [_, name, _] => name.text
  | token :: _ => token.text
  | [] => ""

def Tree.spelling (tree : Tree) : String :=
  Token.operatorText tree.significantTokens

/-- A chain of the inner operator can be an operand of the outer one. -/
def Fixity.Nests (inner outer : Fixity) : Prop :=
  outer.precedence ≤ inner.precedence ∧
    (inner.precedence = outer.precedence →
      inner.associativity = outer.associativity ∧ inner.associativity ≠ .none)

namespace Grammar

/-- The fixity that a table gives the operator of a chain node. -/
def Level.fixityOf (level : Level) (table : OperatorTable) (tree : Tree) : Fixity :=
  table.fixity level.space ((tree.childNodes[1]?.map Tree.spelling).getD "")

/-- The tree may stand as an operand in the chain node `outer`. -/
def Level.Admits (level : Level) (table : OperatorTable) (outer operand : Tree) : Prop :=
  operand.isOfKind level.nodeKind = true →
    (level.fixityOf table operand).Nests (level.fixityOf table outer)

/-- The two operators can be chained: equally tight ones associate to the same side. -/
def Chainable (previous next : Fixity) : Prop :=
  previous.precedence = next.precedence →
    previous.associativity = next.associativity ∧ next.associativity ≠ .none

/--
The node joins two operands with an operator.  Its left operand has stopped at
the operator, and its right operand takes only what binds tightly enough.
-/
def Level.Leans (level : Level) (table : OperatorTable) (tree : Tree) : Prop :=
  ∃ left operator right, tree.childNodes = [left, operator, right] ∧
    operator.isOfKind .operator = true ∧
    (left.isOfKind level.nodeKind = true →
      (level.fixityOf table tree).precedence < leastRight (level.fixityOf table left) ∧
        Chainable (level.fixityOf table left) (level.fixityOf table tree)) ∧
    (right.isOfKind level.nodeKind = true →
      leastRight (level.fixityOf table tree) ≤ (level.fixityOf table right).precedence ∧
        Chainable (level.fixityOf table tree) (level.fixityOf table right))

/-- A node that joins operands at one of the levels leans as the table says. -/
def IsLeaning (table : OperatorTable) (tree : Tree) : Prop :=
  ∀ level : Level, tree.isOfKind level.nodeKind = true → level.Leans table tree

/-- The node joins two operands with an operator, as the fixities of the table allow. -/
def Level.Joins (level : Level) (table : OperatorTable) (tree : Tree) : Prop :=
  ∃ left operator right, tree.childNodes = [left, operator, right] ∧
    operator.isOfKind .operator = true ∧
    level.Admits table tree left ∧ level.Admits table tree right

/-- The answer is true. -/
class Decided (answer : Bool) : Prop where
  holds : answer = true

instance : Decided true :=
  ⟨rfl⟩

/-- A kind of node that is neither that of a chain nor that of a name of a module. -/
@[reducible]
def isSimple : NodeKind → Bool
  | .exprBinary | .binderBinary | .typeBinary | .moduleName => false
  | _ => true

theorem isOfKind_nodeKind_of_isSimple {tree : Tree} {kind : NodeKind}
    (isKind : tree.kind? = some kind) (simple_ : isSimple kind = true) (level : Level) :
    tree.isOfKind level.nodeKind = false := by
  rw [Tree.isOfKind, isKind, decide_eq_false_iff_not, Option.some.injEq]
  rintro rfl
  cases level <;> cases simple_

theorem isLeaning_of_isSimple {kind : NodeKind} (simple_ : isSimple kind = true)
    (table : OperatorTable) (span : Span) (error : Option Diagnostic)
    (children : List Tree) : IsLeaning table (.node kind span error children) :=
  fun level isChain => absurd isChain
    (Bool.eq_false_iff.mp (isOfKind_nodeKind_of_isSimple rfl simple_ level))

/-! ### Fixities in a chain -/

theorem ambiguity?_eq_none_iff (previous next : ChainOperator) :
    ambiguity? previous next = none ↔ Chainable previous.fixity next.fixity := by
  unfold ambiguity? Chainable
  split
  · next differ => simp [differ]
  · next same =>
      split
      · next sides => simp [same, sides]
      · next sides =>
          rw [Decidable.not_not] at sides
          split
          · next lonely => simp [same, lonely]
          · next chained => simp [sides, chained]

theorem leastRight_le (fixity : Fixity) : leastRight fixity ≤ fixity.precedence + 1 := by
  unfold leastRight
  split <;> omega

theorem precedence_le_leastRight {fixity : Fixity}
    (bounded : fixity.precedence ≤ Fixity.maxPrecedence) :
    fixity.precedence ≤ leastRight fixity := by
  unfold leastRight
  split <;> omega

theorem nests_right {inner outer : Fixity} (bounded : outer.precedence ≤ Fixity.maxPrecedence)
    (least : leastRight outer ≤ inner.precedence)
    (chainable : Chainable outer inner) : inner.Nests outer := by
  refine ⟨Nat.le_trans (precedence_le_leastRight bounded) least, fun same => ?_⟩
  obtain ⟨sides, directed⟩ := chainable same.symm
  exact ⟨sides.symm, directed⟩

/-- A chain can be the left operand of an operator that its last right operand stopped at. -/
theorem nests_left {inner outer : Fixity} (stopped : outer.precedence < leastRight inner)
    (chainable : Chainable inner outer) : inner.Nests outer := by
  have least := leastRight_le inner
  refine ⟨by omega, fun same => ?_⟩
  obtain ⟨sides, directed⟩ := chainable same
  exact ⟨sides, sides ▸ directed⟩

/-- The conflict of an operator with the last one and with that in front of the chain. -/
def conflictOf (parent last : Option ChainOperator) (operator : ChainOperator) :
    Option FixityFault :=
  (last.bind fun previous => ambiguity? previous operator).or
    (parent.bind fun previous => ambiguity? previous operator)

theorem chainable_of_conflictOf {parent last : Option ChainOperator}
    {operator : ChainOperator} (noConflict : conflictOf parent last operator = none) :
    (∀ previous ∈ last, Chainable previous.fixity operator.fixity) ∧
      ∀ outer ∈ parent, Chainable outer.fixity operator.fixity := by
  rw [conflictOf, Option.or_eq_none_iff] at noConflict
  obtain ⟨lastNone, parentNone⟩ := noConflict
  constructor
  · rintro previous ⟨rfl⟩
    exact (ambiguity?_eq_none_iff previous operator).mp lastNone
  · rintro outer ⟨rfl⟩
    exact (ambiguity?_eq_none_iff outer operator).mp parentNone

theorem Level.nodeKind_injective {level other : Level}
    (same : level.nodeKind = other.nodeKind) : level = other := by
  cases level with
  | expr =>
    cases other with
    | expr => rfl
    | binder | type => cases same
  | binder =>
    cases other with
    | binder => rfl
    | expr | type => cases same
  | type =>
    cases other with
    | type => rfl
    | expr | binder => cases same

theorem Level.Leans.joins {level : Level} {table : OperatorTable} {tree : Tree}
    (bounded : (level.fixityOf table tree).precedence ≤ Fixity.maxPrecedence)
    (leans : level.Leans table tree) : level.Joins table tree := by
  obtain ⟨left, operator, right, children, isOperator, atLeft, atRight⟩ := leans
  refine ⟨left, operator, right, children, isOperator, fun isChain => ?_, fun isChain => ?_⟩
  · obtain ⟨stopped, chainable⟩ := atLeft isChain
    exact nests_left stopped chainable
  · obtain ⟨least, chainable⟩ := atRight isChain
    exact nests_right bounded least chainable

/-! ### The operator ahead -/

/-- The spelling of the operator ahead; names in backticks count in expressions only. -/
def Level.nameIn (level : Level) (sights : Nat → Sight) : Option String :=
  match (sights 0).kind with
  | .operator => some (sights 0).text
  | .qualifiedOperator => some (sights 0).text
  | .colon => if level = .type then none else some (sights 0).text
  | .backtick =>
    if level = .expr then
      some (if (sights 1).kind.isName then (sights 1).text else (sights 0).text)
    else none
  | _ => none

def chainRound (level : Level) (least : Nat) (parent : Option ChainOperator)
    (state : Bool × Option ChainOperator) :
    Script (ForInStep (Bool × Option ChainOperator)) := do
  match (← operatorAhead level) with
  | none => pure (.done state)
  | some operator =>
    if operator.fixity.precedence < least then pure (.done state)
    else
      around state.1 level.nodeKind do
        operatorNode level operator
          (conflictOf parent state.2 operator)
        rightOperand level operator
      pure (.yield (true, some operator))

end Grammar

end Offside
