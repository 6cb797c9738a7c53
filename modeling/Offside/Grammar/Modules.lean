import Offside.Grammar.Declarations
import Offside.Grammar.Machine

/-!
# Modules

A text is a module: an optional header and then declarations.  This is also
where the rules get their scripts and where a run starts.
-/

namespace Offside.Grammar

open Script

@[reducible]
def moduleHeader : Script Unit :=
  inside .moduleHeader do
    bump
    moduleName
    if (← sees .openParen) then inside .exportList (itemList exportItem)
    ignore (expect (.keyword .whereWord))

/-- One declaration at the top level; if it does not end where an item ends, the rest is skipped. -/
@[reducible]
def topLevelItem : Script Unit := do
  forgetBrackets
  progress decl
  unless (← seesAny itemEnds) do
    recover [.layoutSep] []

/--
Declarations up to the end of the block or text.  Before each of them the
question is asked whether to give up; the answer says whether that happened.
-/
@[reducible]
def topLevel : Script Bool :=
  loop false fun _ => do
    if (← poll) then pure (.done true)
    else
      whileSeen (eat .layoutSep) (pure ())
      if (← seesAny [.layoutEnd, .eof]) then pure (.done false)
      else
        topLevelItem
        pure (.yield false)

/-- The header and the declarations; the answer says whether the run was given up. -/
@[reducible]
def moduleItems : Script Bool := do
  if (← sees (.keyword .moduleWord)) then
    moduleHeader
    if (← eat .layoutStart) then
      let cancelled ← topLevel
      ignore (expect .layoutEnd)
      pure cancelled
    else topLevel
  else topLevel

@[reducible]
def seesMore : Script Bool := do
  return (← kind) ≠ .eof

/-- Everything inside the root node; the answer says whether the run was given up. -/
@[reducible]
def wholeModule : Script Bool := do
  let cancelled ← moduleItems
  unless cancelled do
    whileSeen seesMore (misfit [])
    bump
  pure cancelled

def operandOf : Level → Script Bool
  | .expr => call .operand
  | .binder => binderOperand
  | .type => typeApp

def scriptOf : Rule → Script Bool
  | .expr => exprRule
  | .operand => operandRule
  | .chain level least parent => chain (operandOf level) level least parent
  | .update => updateRule
  | .binder => binderRule
  | .binderAtom => binderAtomRule
  | .type => typeRule
  | .localDecl => localDeclRule

/-- The depth of calls that a run over so many tokens can need: each token is taken before any
rule calls itself again. -/
def callBound (tokens : Nat) : Nat :=
  16 * (tokens + 2)

/-- Run a script from a state, with every rule available. -/
def Script.execute {α : Type} (setting : Setting) (script : Script α) (state : State) :
    α × State :=
  script.run setting (runRule setting scriptOf (callBound setting.rounds)) state

/-- Read a whole module: whether the run was given up, and the state at its end. -/
def readModule (setting : Setting) (start : State) : Bool × State :=
  let (cancelled, state) := wholeModule.execute setting (start.mark .start)
  (cancelled, state.mark (.finish .wholeModule none))

end Offside.Grammar
