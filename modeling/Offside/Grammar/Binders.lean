import Offside.Grammar.Types

/-!
# Binders

The patterns of function heads, lambdas, case branches and bindings.
-/

namespace Offside.Grammar

open Script

def binderStarts : List TokenKind :=
  [.lowerName, .upperName, .underscore, .openParen, .openSquare, .openBrace]

@[reducible]
def seesNegativeNumber : Script Bool := do
  if (← seesOperator "-") then
    let digits ← kindAt 1
    pure (digits = .integer || digits = .number)
  else pure false

/-- Kinds of tokens that start a binder needing no brackets. -/
def isBinderAtomStart (kind : TokenKind) : Bool :=
  kind.isLiteral ||
    match kind with
    | .underscore | .lowerName | .upperName | .qualifiedUpper | .opening _ => true
    | _ => false

@[reducible]
def seesBinderAtom : Script Bool := do
  if isBinderAtomStart (← kind) then pure true else seesNegativeNumber

/-- A field of a record, with a value after a colon or standing for itself. -/
@[reducible]
def recordField (value : Script Unit) : Script Unit :=
  inside .recordField do
    let kind ← kind
    if kind.isLabel then
      bump
      if (← eat .colon) then value
      else unless kind = .lowerName do
        missing [.colon]
    else recover [.lowerName] [.comma]

@[reducible]
def recordFields (value : Script Unit) : Script Unit := do
  unless (← sees .closeBrace) do
    separated .comma (recordField value)

@[reducible]
def arrayItems (item : Script Unit) : Script Unit := do
  unless (← sees .closeSquare) do
    separated .comma item

/-- A binder needing no brackets; the answer is its kind. -/
def binderAtomBody : Script (Option NodeKind) := do
  let kind ← kind
  if kind.isLiteral then
    bump
    pure (some .binderLiteral)
  else
    match kind with
    | .underscore =>
      bump
      pure (some .binderWildcard)
    | .lowerName =>
      if (← kindAt 1) = .atSign then
        bump
        bump
        ignore (call .binderAtom)
        pure (some .binderNamed)
      else
        bump
        pure (some .binderVar)
    | .upperName =>
      bump
      pure (some .binderConstructor)
    | .qualifiedUpper =>
      bump
      pure (some .binderConstructor)
    | .openParen =>
      bump
      ignore (call .binder)
      expectClosing .paren
      pure (some .binderParens)
    | .openSquare =>
      bump
      arrayItems (ignore (call .binder))
      expectClosing .square
      pure (some .binderArray)
    | .openBrace =>
      bump
      recordFields (ignore (call .binder))
      expectClosing .brace
      pure (some .binderRecord)
    | _ =>
      if (← seesNegativeNumber) then
        bump
        bump
        pure (some .binderLiteral)
      else
        missing binderStarts
        pure none

@[reducible]
def binderAtomRule : Script Bool := do
  if (← enter) then
    let finished ← node binderAtomBody
    leave
    pure finished
  else pure false

@[reducible]
def binderAtoms : Script Unit :=
  whileSeen seesBinderAtom (ignore (call .binderAtom))

/-- A constructor with its arguments, or a binder needing no brackets. -/
@[reducible]
def binderOperand : Script Bool := do
  if (← seesAny classNames) then
    nodeOf .binderConstructor do
      bump
      binderAtoms
  else call .binderAtom

/-- What a rule has read, with a type behind it if there is one. -/
@[reducible]
def typedAs (kind : NodeKind) (rule : Rule) : Script Bool := do
  let finished ← call rule
  if (← sees .doubleColon) then
    around finished kind do
      bump
      ignore (call .type)
    pure true
  else pure finished

@[reducible]
def binderRule : Script Bool := do
  if (← enter) then
    let finished ← typedAs .binderTyped (.chain .binder 0 none)
    leave
    pure finished
  else pure false

end Offside.Grammar
