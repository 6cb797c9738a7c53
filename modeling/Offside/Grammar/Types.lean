import Offside.Grammar.Chain

/-!
# Types

Types, kinds, rows and constraints.
-/

namespace Offside.Grammar

open Script

def typeStarts : List TokenKind :=
  [.lowerName, .upperName, .openParen, .openBrace, .keyword .forallWord]

@[reducible]
def seesNegativeInteger : Script Bool := do
  if (← seesOperator "-") then
    return (← kindAt 1) = .integer
  else pure false

/-- Kinds of tokens that start a type needing no brackets. -/
def isTypeAtomStart : TokenKind → Bool
  | .lowerName | .upperName | .qualifiedUpper | .underscore | .hole | .string | .rawString
  | .integer | .openParen | .openBrace => true
  | _ => false

@[reducible]
def seesTypeAtom : Script Bool := do
  if isTypeAtomStart (← kind) then pure true else seesNegativeInteger

/-- A token that is no token, in a place where an operand could stand. -/
@[reducible]
def faultyAtom (problem : LexFault) : Script Bool := do
  fault (.lex problem) [] bump
  pure true

/-- The fields of a row and its tail: `label :: Type, ... | tail`. -/
@[reducible]
def row (closer : TokenKind) : Script Unit := do
  unless (← seesAny [.pipe, closer]) do
    separated .comma do
      inside .rowField do
        if (← kind).isLabel then bump else missing [.lowerName]
        if (← expect .doubleColon) then ignore (call .type)
  if (← sees .pipe) then
    inside .rowTail do
      bump
      ignore (call .type)

@[reducible]
def seesRow : Script Bool := do
  let kind ← kind
  if kind = .closeParen || kind = .pipe then pure true
  else if kind.isLabel then
    return (← kindAt 1) = .doubleColon
  else pure false

/-- What stands in parentheses other than a row: a type, a kinded type, or constraints. -/
@[reducible]
def parenthesizedType : Script NodeKind := do
  let finished ← call .type
  if (← sees .doubleColon) then
    around finished .typeKinded do
      bump
      ignore (call .type)
    pure .typeParens
  else if (← sees .comma) then
    whileSeen (eat .comma) (ignore (call .type))
    pure .constraints
  else pure .typeParens

@[reducible]
def seesTypeOperatorName : Script Bool := do
  let name ← kindAt 1
  if name = .operator || name = .qualifiedOperator then
    return (← kindAt 2) = .closeParen
  else pure false

/-- An operator in parentheses, a row, a kinded type, constraints, or plain parentheses. -/
@[reducible]
def typeParens : Script Bool := do
  if (← enter) then
    node do
      if (← seesTypeOperatorName) then
        bump
        bump
        bump
        leave
        pure (some .typeOpName)
      else
        bump
        if (← seesRow) then
          row .closeParen
          expectClosing .paren
          leave
          pure (some .typeRow)
        else
          let kind ← parenthesizedType
          expectClosing .paren
          leave
          pure (some kind)
  else pure false

def typeAtom : Script Bool := do
  match (← kind) with
  | .lowerName => single .typeVar
  | .upperName => single .typeConstructor
  | .qualifiedUpper => single .typeConstructor
  | .underscore => single .typeWildcard
  | .hole => single .typeHole
  | .string => single .typeString
  | .rawString => single .typeString
  | .integer => single .typeInt
  | .openBrace =>
    nodeOf .typeRecord do
      bump
      row .closeBrace
      expectClosing .brace
  | .openParen => typeParens
  | .error problem => faultyAtom problem
  | _ =>
    if (← seesNegativeInteger) then
      nodeOf .typeInt do
        bump
        bump
    else
      missing typeStarts
      pure false

@[reducible]
def typeApp : Script Bool := do
  if (← typeAtom) then
    if (← seesTypeAtom) then
      wrap .typeApp (whileSeen seesTypeAtom (ignore typeAtom))
    pure true
  else pure false

@[reducible]
def typeArrow : Script Bool := do
  let finished ← call (.chain .type 0 none)
  if (← sees .arrow) then
    around finished .typeArrow do
      bump
      ignore (call .type)
    pure true
  else pure finished

/-- A type variable, visible or not, with an optional kind: `a`, `@a`, `(a :: Kind)`. -/
def typeVarBinding : Script Unit :=
  inside .typeVarBinding do
    match (← kind) with
    | .openParen =>
      bump
      ignore (eat .atSign)
      ignore (expect .lowerName)
      if (← expect .doubleColon) then ignore (call .type)
      expectClosing .paren
    | .atSign =>
      bump
      ignore (expect .lowerName)
    | _ => ignore (expect .lowerName)

/-- Kinds of tokens that start a type variable of a quantifier. -/
def quantifiedStarts : List TokenKind :=
  [.lowerName, .openParen, .atSign]

@[reducible]
def forallType : Script Bool :=
  nodeOf .typeForall do
    bump
    unless (← seesAny quantifiedStarts) do
      missing [.lowerName]
    whileSeen (seesAny quantifiedStarts) typeVarBinding
    if (← expect .dot) then ignore (call .type)

/-- A quantified type, a type with constraints in front of it, or a plain one. -/
@[reducible]
def typeBody : Script Bool := do
  if (← sees (.keyword .forallWord)) then forallType
  else
    let finished ← typeArrow
    if (← sees .fatArrow) then
      around finished .typeConstrained do
        bump
        ignore (call .type)
      pure true
    else pure finished

/-- A type: `forall a. C a => a -> T a`. -/
@[reducible]
def typeRule : Script Bool := do
  if (← enter) then
    let finished ← typeBody
    leave
    pure finished
  else pure false

def classNames : List TokenKind :=
  [.upperName, .qualifiedUpper]

@[reducible]
def constraint : Script Unit := do
  if (← seesAny classNames) then
    inside .constraint do
      bump
      whileSeen seesTypeAtom (ignore typeAtom)
  else missing [.upperName]

@[reducible]
def constraints : Script Unit :=
  inside .constraints do
    if (← eat .openParen) then
      separated .comma constraint
      expectClosing .paren
    else constraint

end Offside.Grammar
