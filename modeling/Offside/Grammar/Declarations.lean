import Offside.Fixity.Declared
import Offside.Grammar.Expressions

/-!
# Declarations

Values, signatures, types, classes, instances, foreign imports, fixities and
module imports.
-/

namespace Offside.Grammar

open Script

def declStarts : List TokenKind :=
  [.lowerName, .keyword .importWord, .keyword .dataWord, .keyword .typeWord,
    .keyword .newtypeWord, .keyword .classWord, .keyword .instanceWord, .keyword .foreignWord]

/-! ### Values -/

@[reducible]
def signature : Script Unit :=
  inside .signature do
    bump
    bump
    ignore (call .type)

@[reducible]
def valueDecl : Script Unit :=
  inside .valueDecl do
    bump
    binderAtoms
    rhs .equals

/-- A declaration inside `let`, `where` or an instance. -/
@[reducible]
def localDeclRule : Script Bool := do
  let next ← kindAt 1
  if (← sees .lowerName) && next = .doubleColon then signature
  else if (← sees .lowerName) && next ≠ .atSign then valueDecl
  else if (← seesBinderAtom) then
    inside .patternBinding do
      ignore (call .binder)
      rhs .equals
  else recover [.lowerName] []
  pure false

/-! ### Types -/

/-- The type variables after the name of a type or class. -/
@[reducible]
def typeVarBindings : Script Unit :=
  whileSeen (seesAny [.lowerName, .openParen]) typeVarBinding

@[reducible]
def dataCtor : Script Unit := do
  if (← sees .upperName) then
    inside .dataCtor do
      bump
      whileSeen seesTypeAtom (ignore typeAtom)
  else recover [.upperName] [.pipe]

/-- The kind after a declared name, if there is one; otherwise what the body says. -/
@[reducible]
def kindOr (body : Script NodeKind) : Script (Option NodeKind) := do
  if (← eat .doubleColon) then
    ignore (call .type)
    pure (some .kindSignature)
  else
    let kind ← body
    pure (some kind)

@[reducible]
def dataDecl : Script Unit :=
  ignore <| node do
    bump
    ignore (expect .upperName)
    kindOr do
      typeVarBindings
      if (← eat .equals) then separated .pipe dataCtor
      pure .dataDecl

@[reducible]
def seesRoles : Script Bool := do
  if (← seesWord "role") then
    return (← kindAt 1) = .upperName
  else pure false

/-- A type synonym, its kind, or the roles of the parameters of a type. -/
@[reducible]
def typeDecl : Script Unit :=
  ignore <| node do
    bump
    if (← seesRoles) then
      bump
      bump
      whileSeen (sees .lowerName) bump
      pure (some .roleDecl)
    else
      ignore (expect .upperName)
      kindOr do
        typeVarBindings
        if (← expect .equals) then ignore (call .type)
        pure .typeSynonym

/-- The only constructor of a newtype, with the type of its argument. -/
@[reducible]
def newtypeCtor : Script Unit := do
  if (← sees .upperName) then
    inside .dataCtor do
      bump
      if (← seesTypeAtom) then ignore typeAtom else missing [.openParen, .upperName]
  else missing [.upperName]

@[reducible]
def newtypeDecl : Script Unit :=
  ignore <| node do
    bump
    ignore (expect .upperName)
    kindOr do
      typeVarBindings
      if (← expect .equals) then newtypeCtor
      pure .newtypeDecl

/-! ### Classes and instances -/

def isSuperclassArrow (sight : Sight) : Bool :=
  sight.kind = .operator && (sight.text = "<=" || sight.text = "⇐")

/-- Take the superclass arrow if it is ahead, and say whether it was. -/
@[reducible]
def eatSuperclassArrow : Script Bool := do
  if isSuperclassArrow (← peek 0) then
    bump
    pure true
  else pure false

/-- The superclasses of a class and the arrow after them. -/
@[reducible]
def superclasses : Script Unit := do
  constraints
  unless (← eatSuperclassArrow) do
    recover [.operator] [.upperName]
    ignore eatSuperclassArrow

@[reducible]
def lowerNames : Script Unit :=
  whileSeen (eat .lowerName) (pure ())

/-- One functional dependency: identifiers on both sides of an arrow. -/
@[reducible]
def funDep : Script Unit :=
  inside .funDep do
    lowerNames
    ignore (expect .arrow)
    lowerNames

@[reducible]
def funDeps : Script Unit :=
  inside .funDeps do
    bump
    separated .comma funDep

@[reducible]
def classMember : Script Unit := do
  let next ← kindAt 1
  if (← sees .lowerName) && next = .doubleColon then signature else recover [.lowerName] []

/-- A block after `where` that may be empty. -/
@[reducible]
def body (kind : NodeKind) (item : Script Unit) : Script Unit := do
  if (← sees (.keyword .whereWord)) then
    inside kind do
      bump
      block item none

def classDecl : Script Unit :=
  ignore <| node do
    bump
    if (← search isSuperclassArrow [.keyword .whereWord]) then superclasses
    ignore (expect .upperName)
    kindOr do
      typeVarBindings
      if (← sees .pipe) then funDeps
      body .classBody classMember
      pure .classDecl

/-- The head of an instance: an optional name, optional constraints, and a class. -/
@[reducible]
def instanceHead : Script Unit := do
  let next ← kindAt 1
  if (← sees .lowerName) && next = .doubleColon then
    bump
    bump
  if (← search (fun sight => sight.kind = .fatArrow) [.keyword .whereWord]) then
    constraints
    ignore (expect .fatArrow)
  constraint

@[reducible]
def instanceDecl : Script Unit :=
  inside .instanceDecl do
    ignore (expect (.keyword .instanceWord))
    instanceHead
    body .instanceBody (ignore (call .localDecl))

/-- Instances joined by `else`, which may stand on a line of its own. -/
@[reducible]
def instanceChain : Script Unit :=
  inside .instanceChain do
    loop () fun _ => do
      instanceDecl
      let next ← kindAt 1
      if (← sees .layoutSep) && next = .keyword .elseWord then bump
      if (← eat (.keyword .elseWord)) then
        ignore (eat .layoutSep)
        pure (.yield ())
      else pure (.done ())

@[reducible]
def deriveDecl : Script Unit :=
  inside .deriveDecl do
    bump
    ignore (eat (.keyword .newtypeWord))
    ignore (expect (.keyword .instanceWord))
    instanceHead

/-! ### Foreign imports and fixities -/

@[reducible]
def foreignDecl : Script Unit :=
  ignore <| node do
    bump
    ignore (expect (.keyword .importWord))
    let isData ← eat (.keyword .dataWord)
    ignore (expect (if isData then .upperName else .lowerName))
    if (← expect .doubleColon) then ignore (call .type)
    pure (some (if isData then .foreignData else .foreignImport))

/-- Take the precedence of a fixity declaration; the answer is its value, if it has one. -/
@[reducible]
def precedence : Script (Option Nat) := do
  let sight ← peek 0
  if sight.kind = .integer then
    bump
    pure (Literal.byte? sight.text)
  else
    missing [.integer]
    pure none

/-- Take the operator of a fixity declaration and declare it, if the precedence has a value. -/
def declaredOperator (space : Namespace) (associativity : Associativity)
    (precedence : Option Nat) : Script Unit := do
  let sight ← peek 0
  if DeclaredFixity.isOperator sight.kind then
    let conflicts ←
      match precedence with
      | some precedence => declare space sight.text ⟨associativity, precedence⟩
      | none => pure false
    if conflicts then fault (.fixity (.conflictingFixity sight.text)) [] bump else bump
  else missing [.operator]

/-- A fixity declaration: `infixl 6 add as +`. -/
@[reducible]
def fixityDecl (associativity : Associativity) : Script Unit :=
  inside .fixityDecl do
    bump
    let precedence ← precedence
    let isType ← eat (.keyword .typeWord)
    if (← kind).isName then bump else missing [.lowerName, .upperName]
    unless (← eatWord "as") do
      missing [.lowerName]
    declaredOperator (if isType then .type else .value) associativity precedence

/-! ### Imports -/

@[reducible]
def moduleName : Script Unit := do
  if (← seesAny classNames) then inside .moduleName bump else missing [.upperName]

@[reducible]
def operatorInParens : Script Unit := do
  bump
  if (← seesAny [.operator, .colon, .qualifiedOperator]) then bump else missing [.operator]
  ignore (expect .closeParen)

/-- The constructors after the name of a type: all of them, or those listed. -/
@[reducible]
def dataMembers : Script Unit :=
  inside .dataMembers do
    bump
    unless (← eat .doubleDot) do
      unless (← sees .closeParen) do
        separated .comma do
          unless (← eat .upperName) do
            recover [.upperName] [.comma]
    ignore (expect .closeParen)

@[reducible]
def seesKindItem : Script Bool := do
  if (← seesWord "kind") then
    return (← kindAt 1) = .upperName
  else pure false

def importItem : Script Unit := do
  match (← kind) with
  | .lowerName =>
    if (← seesKindItem) then
      inside .itemKind do
        bump
        bump
    else inside .itemValue bump
  | .openParen => inside .itemOperator operatorInParens
  | .upperName =>
    inside .itemType do
      bump
      if (← sees .openParen) then dataMembers
  | .keyword .typeWord =>
    inside .itemTypeOperator do
      bump
      if (← sees .openParen) then operatorInParens else missing [.openParen]
  | .keyword .classWord =>
    inside .itemClass do
      bump
      ignore (expect .upperName)
  | _ => recover [.lowerName, .upperName, .openParen] [.comma]

/-- One entry of an export list, which may also name a module. -/
@[reducible]
def exportItem : Script Unit := do
  if (← sees (.keyword .moduleWord)) then
    inside .itemModule do
      bump
      moduleName
  else importItem

/-- Items in parentheses; what is no item is skipped up to the next comma. -/
@[reducible]
def itemList (item : Script Unit) : Script Unit := do
  bump
  unless (← eat .closeParen) do
    separated .comma do
      item
      unless (← seesAny [.comma, .closeParen]) do
        recover [.comma, .closeParen] [.comma]
    ignore (expect .closeParen)

@[reducible]
def importDecl : Script Unit :=
  inside .importDecl do
    bump
    moduleName
    ignore (eatWord "hiding")
    if (← sees .openParen) then inside .importList (itemList importItem)
    if (← seesWord "as") then
      inside .importAlias do
        bump
        moduleName

/-! ### Top level -/

def decl : Script Unit := do
  match (← kind) with
  | .keyword .importWord => importDecl
  | .keyword .foreignWord => foreignDecl
  | .keyword .dataWord => dataDecl
  | .keyword .typeWord => typeDecl
  | .keyword .newtypeWord => newtypeDecl
  | .keyword .classWord => classDecl
  | .keyword .instanceWord => instanceChain
  | .keyword .deriveWord => deriveDecl
  | .keyword .infixWord => fixityDecl .none
  | .keyword .infixlWord => fixityDecl .left
  | .keyword .infixrWord => fixityDecl .right
  | .lowerName => if (← kindAt 1) = .doubleColon then signature else valueDecl
  | _ => recover declStarts []

end Offside.Grammar
