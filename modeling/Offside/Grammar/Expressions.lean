import Offside.Grammar.Binders

/-!
# Expressions and right-hand sides

Expressions, the blocks of statements and branches inside them, and the
right-hand sides of declarations and branches.
-/

namespace Offside.Grammar

open Script

def exprStarts : List TokenKind :=
  [.lowerName, .upperName, .integer, .string, .openParen, .openSquare, .openBrace]

/-- Kinds of tokens that follow an expression; a missing operand in front of one is not skipped. -/
def exprFollowers : List TokenKind :=
  [.keyword .inWord, .keyword .thenWord, .keyword .elseWord, .keyword .ofWord,
    .keyword .whereWord, .arrow, .equals, .comma, .pipe, .leftArrow, .doubleColon, .fatArrow,
    .closeParen, .closeSquare, .closeBrace]

/-- Kinds of tokens that start an expression needing no brackets. -/
def isExprAtomStart (kind : TokenKind) : Bool :=
  kind.isLiteral ||
    match kind with
    | .lowerName | .qualifiedLower | .upperName | .qualifiedUpper | .hole | .underscore
    | .opening _ | .keyword .ifWord | .keyword .caseWord | .keyword .letWord
    | .keyword .doWord | .qualifiedDo | .keyword .adoWord | .qualifiedAdo | .backslash
    | .error _ => true
    | _ => false

@[reducible]
def seesArgument : Script Bool := do
  let kind ← kind
  pure (isExprAtomStart kind || kind = .atSign)

/-- One of several right-hand sides: a guard after a bar. -/
@[reducible]
def guardNode (separator : TokenKind) : Script Unit :=
  ignore <| node do
    if (← search (fun sight => sight.kind = .leftArrow) [.comma, separator]) then
      ignore (call .binder)
      ignore (expect .leftArrow)
      ignore (call .expr)
      pure (some .patternGuard)
    else
      ignore (call .expr)
      pure (some .guard)

/-- The guards after a bar, and the expression that they guard. -/
@[reducible]
def guardedRhs (separator : TokenKind) : Script Unit :=
  inside .guardedRhs do
    bump
    separated .comma (guardNode separator)
    if (← expect separator) then ignore (call .expr)

/-- A block of local declarations that must not be empty. -/
@[reducible]
def localDecls : Script Unit :=
  block (ignore (call .localDecl)) (some [.lowerName])

/--
The right-hand side of a declaration or branch: an expression after the
separator, or guarded ones, and then the local declarations.
-/
@[reducible]
def rhs (separator : TokenKind) : Script Unit := do
  if (← sees .pipe) then whileSeen (sees .pipe) (guardedRhs separator)
  else
    inside .unguardedRhs do
      if (← expect separator) then ignore (call .expr)
  if (← sees (.keyword .whereWord)) then
    inside .whereClause do
      bump
      localDecls

@[reducible]
def seesOperatorName : Script Bool := do
  let name ← kindAt 1
  if name = .operator || name = .qualifiedOperator || name = .colon then
    return (← kindAt 2) = .closeParen
  else pure false

/-- An expression in parentheses, or the name of an operator. -/
@[reducible]
def parenthesized : Script Bool :=
  node do
    if (← seesOperatorName) then
      bump
      bump
      bump
      pure (some .exprOpName)
    else
      bump
      ignore (call .expr)
      expectClosing .paren
      pure (some .exprParens)

/-- A condition: `if a then b else c`. -/
@[reducible]
def conditional : Script Bool :=
  nodeOf .exprIf do
    bump
    ignore (call .expr)
    if (← expect (.keyword .thenWord)) then
      ignore (call .expr)
      if (← expect (.keyword .elseWord)) then ignore (call .expr)

/-- A branch of a case expression: binders and a right-hand side. -/
@[reducible]
def caseBranch : Script Unit :=
  inside .caseBranch do
    separated .comma (ignore (call .binder))
    rhs .arrow

/-- A distinction of cases: `case a, b of` and a block of branches. -/
@[reducible]
def caseExpr : Script Bool :=
  nodeOf .exprCase do
    bump
    separated .comma (ignore (call .expr))
    if (← expect (.keyword .ofWord)) then block caseBranch (some binderStarts)

/-- The declarations after a `let`. -/
@[reducible]
def letBindings : Script Unit :=
  inside .letBindings localDecls

/-- An expression with bindings in front of it: `let bindings in expr`. -/
@[reducible]
def letExpr : Script Bool :=
  nodeOf .exprLet do
    bump
    letBindings
    if (← expect (.keyword .inWord)) then ignore (call .expr)

/-- A `let` inside a block of statements: an expression if an `in` follows, else bindings. -/
@[reducible]
def letStatement : Script NodeKind := do
  let isExpr ←
    node do
      bump
      letBindings
      if (← eat (.keyword .inWord)) then
        ignore (call .expr)
        pure (some .exprLet)
      else pure none
  pure (if isExpr then .doDiscard else .doLet)

/-- A statement: `binder <- expr`, a `let`, or an expression. -/
@[reducible]
def statement : Script Unit :=
  ignore <| node do
    if (← sees (.keyword .letWord)) then
      let kind ← letStatement
      pure (some kind)
    else if (← search (fun sight => sight.kind = .leftArrow) []) then
      ignore (call .binder)
      ignore (expect .leftArrow)
      ignore (call .expr)
      pure (some .doBind)
    else
      ignore (call .expr)
      pure (some .doDiscard)

/-- The keyword `do` and its statements. -/
@[reducible]
def doExpr : Script Bool :=
  nodeOf .exprDo do
    bump
    block statement (some exprStarts)

/-- The keyword `ado`, its statements, and the result. -/
@[reducible]
def adoExpr : Script Bool :=
  nodeOf .exprAdo do
    bump
    block statement none
    if (← expect (.keyword .inWord)) then ignore (call .expr)

/-- A function: `\a b -> expr`. -/
@[reducible]
def lambda : Script Bool :=
  nodeOf .exprLambda do
    bump
    unless (← seesBinderAtom) do
      missing [.lowerName]
    binderAtoms
    if (← expect .arrow) then ignore (call .expr)

def exprAtom : Script Bool := do
  let kind ← kind
  if kind.isLiteral then single .exprLiteral
  else
    match kind with
    | .lowerName => single .exprVar
    | .qualifiedLower => single .exprVar
    | .upperName => single .exprConstructor
    | .qualifiedUpper => single .exprConstructor
    | .hole => single .exprHole
    | .underscore => single .exprSection
    | .openParen => parenthesized
    | .openSquare =>
      nodeOf .exprArray do
        bump
        arrayItems (ignore (call .expr))
        expectClosing .square
    | .openBrace =>
      nodeOf .exprRecord do
        bump
        recordFields (ignore (call .expr))
        expectClosing .brace
    | .keyword .ifWord => conditional
    | .keyword .caseWord => caseExpr
    | .keyword .letWord => letExpr
    | .keyword .doWord => doExpr
    | .qualifiedDo => doExpr
    | .keyword .adoWord => adoExpr
    | .qualifiedAdo => adoExpr
    | .backslash => lambda
    | .error problem => faultyAtom problem
    | _ =>
      if exprFollowers.contains kind then missing exprStarts
      else if (← seesEnd []) then missing exprStarts
      else misfit exprStarts
      pure false

@[reducible]
def seesSelection : Script Bool := do
  if (← sees .dot) then
    return (← kindAt 1).isLabel
  else pure false

@[reducible]
def seesUpdate : Script Bool := do
  if (← sees .openBrace) then
    if (← kindAt 1).isLabel then
      let mark ← kindAt 2
      pure (mark = .equals || mark = .openBrace)
    else pure false
  else pure false

/-- An expression needing no brackets, with selections and updates after it. -/
@[reducible]
def exprPostfix : Script Bool := do
  if (← exprAtom) then
    loop () fun _ => do
      if (← seesSelection) then
        wrap .exprRecordAccess do
          bump
          bump
        pure (.yield ())
      else if (← seesUpdate) then
        wrap .exprRecordUpdate (ignore (call .update))
        pure (.yield ())
      else pure (.done ())
    pure true
  else pure false

/-- The new values of the fields of a record: `{ a = 1, b { c = 2 } }`. -/
@[reducible]
def updateRule : Script Bool := do
  bump
  separated .comma do
    inside .recordUpdateField do
      if (← kind).isLabel then bump else missing [.lowerName]
      if (← sees .openBrace) then
        if (← enter) then
          ignore (call .update)
          leave
      else if (← expect .equals) then ignore (call .expr)
  expectClosing .brace
  pure false

/-- An argument of a function: a type after an at sign, or an expression. -/
@[reducible]
def argument : Script Unit := do
  if (← sees .atSign) then
    inside .typeArg do
      bump
      ignore typeAtom
  else ignore exprPostfix

@[reducible]
def exprApp : Script Bool := do
  if (← exprPostfix) then
    if (← seesArgument) then wrap .exprApp (whileSeen seesArgument argument)
    pure true
  else pure false

/-- An operand of a chain: an application, or a negated operand. -/
@[reducible]
def operandRule : Script Bool := do
  if (← seesOperator "-") then
    if (← enter) then
      nodeOf .exprNegate do
        bump
        ignore (call .operand)
        leave
    else pure false
  else exprApp

@[reducible]
def exprRule : Script Bool := do
  if (← enter) then
    let finished ← typedAs .exprTyped (.chain .expr 0 none)
    leave
    pure finished
  else pure false

end Offside.Grammar
