import Offside.Grammar.Reading

/-!
# Operator chains

Operands joined by operators are grouped while they are read: the right
operand of an operator takes the operators that bind more tightly.  Operators
of equal precedence can be chained only if all of them associate to the same
side; otherwise the chain still makes a tree, and the operator that cannot be
placed is blamed.
-/

namespace Offside.Grammar

open Script

/-- The namespace in which a grammar looks its operators up. -/
def Level.space : Level → Namespace
  | .type => .type
  | .expr => .value
  | .binder => .value

def Level.nodeKind : Level → NodeKind
  | .expr => .exprBinary
  | .binder => .binderBinary
  | .type => .typeBinary

def ambiguity? (previous next : ChainOperator) : Option FixityFault :=
  if previous.fixity.precedence ≠ next.fixity.precedence then none
  else if previous.fixity.associativity ≠ next.fixity.associativity then
    some (.mixedAssociativity previous.name next.name)
  else if next.fixity.associativity = .none then some (.nonAssociative next.name)
  else none

/-- The least precedence that the right operand of an operator may be chained with. -/
def leastRight (fixity : Fixity) : Nat :=
  match fixity.associativity with
  | .right => fixity.precedence
  | .left => min (fixity.precedence + 1) Fixity.maxPrecedence
  | .none => min (fixity.precedence + 1) Fixity.maxPrecedence

/-- The spelling of the operator ahead; names in backticks count in expressions only. -/
def operatorName (level : Level) : Script (Option String) := do
  let sight ← peek 0
  match sight.kind with
  | .operator => pure (some sight.text)
  | .qualifiedOperator => pure (some sight.text)
  | .colon => pure (if level = .type then none else some sight.text)
  | .backtick =>
    if level = .expr then
      let name ← peek 1
      pure (some (if name.kind.isName then name.text else sight.text))
    else pure none
  | _ => pure none

def operatorAhead (level : Level) : Script (Option ChainOperator) := do
  match (← operatorName level) with
  | none => pure none
  | some name =>
    let fixity ← lookup level.space name
    pure (some ⟨name, fixity.getD Fixity.default⟩)

/-- The operator ahead is to be reported because nobody declared it. -/
@[reducible]
def isUnknown (level : Level) (operator : ChainOperator) : Script Bool := do
  if (← sees .backtick) then pure false
  else if (← reportsUnknown) then
    return (← lookup level.space operator.name).isNone
  else pure false

@[reducible]
def backtickedName : Script Unit := do
  bump
  if (← kind).isName then bump else missing [.lowerName]
  ignore (expect .backtick)

/-- An operator; if it cannot be placed or is unknown, it is blamed. -/
@[reducible]
def operatorNode (level : Level) (operator : ChainOperator) (conflict : Option FixityFault) :
    Script Unit := do
  let unknown ← isUnknown level operator
  let found ← sighting
  inside .operator do
    if (← sees .backtick) then backtickedName else bump
  match conflict with
  | some problem => blame (.fixity problem) found
  | none => if unknown then blame (.fixity (.unknownOperator operator.name)) found

/-- The operand to the right of an operator, one level deeper. -/
@[reducible]
def rightOperand (level : Level) (operator : ChainOperator) : Script Unit := do
  if (← enter) then
    ignore (call (.chain level (leastRight operator.fixity) (some operator)))
    leave

/--
A chain of operands and operators that bind at least as tightly as `least`.
The answer says whether it left a finished node.
-/
def chain (operand : Script Bool) (level : Level) (least : Nat)
    (parent : Option ChainOperator) : Script Bool := do
  let first ← operand
  let (finished, _) ←
    loop (first, (none : Option ChainOperator)) fun (finished, last) => do
      match (← operatorAhead level) with
      | none => pure (.done (finished, last))
      | some operator =>
        if operator.fixity.precedence < least then pure (.done (finished, last))
        else
          let conflict :=
            (last.bind fun previous => ambiguity? previous operator).or
              (parent.bind fun previous => ambiguity? previous operator)
          around finished level.nodeKind do
            operatorNode level operator conflict
            rightOperand level operator
          pure (.yield (true, some operator))
  pure finished

end Offside.Grammar
