import Offside.Proofs.SpelledTerms

/-!
# Expressions and right-hand sides spell their productions

If the rules hand on what they promise, so do the scripts of expressions, of
the blocks inside them, and of the right-hand sides of declarations and
branches.
-/

namespace Offside.Grammar

open Offside.Phrase
open scoped Computability

variable {reader : Reader} {reading : Reading}

section Expressions

variable (spell : RulesSpell reader)
include spell

theorem yields_expr : Yields reader reading (ignore (.call .expr)) fun _ => expr :=
  (spell.expr reading).yields.ignore

theorem spells_localDecls : Spells reader localDecls fun _ => someBlock localDecl :=
  spells_someBlock _ fun reading => (spell.localDecl reading).ignore

/-! ### Right-hand sides -/

theorem spells_guardNode (separator : TokenKind) :
    Spells reader (guardNode separator) fun _ => nodeIn isGuard := by
  intro reading
  refine (Hands.nodeIn fun inner _ => ?_).yields.ignore
  refine .look rfl ?_
  split
  · refine .of_rest (.on (yields_binder spell) fun _ _ =>
      .on (yields_expect (by decide)).ignore fun _ _ => .on (yields_expr spell) fun _ _ =>
        yields_done ?_)
    rw [one_mul, mul_assoc]
    exact le_producedIn rfl le_rfl
  · exact (yields_expr spell).answer (le_producedIn rfl le_rfl)

section Signs

variable {separator : TokenKind} (sign : separator = .equals ∨ separator = .arrow)
include sign

omit spell in
theorem token_le_rhsSign : (token separator : Language Shape) ≤ rhsSign :=
  token_le (by rcases sign with rfl | rfl <;> rfl)

theorem spells_signed : Spells reader (do
    if (← expect separator) then ignore (.call .expr)) fun _ => rhsSign * expr := fun _ =>
  (Yields.ifExpect (by rcases sign with rfl | rfl <;> decide) fun _ => yields_expr spell).mono
    fun _ => mul_le_mul_left (token_le_rhsSign sign) _

theorem yields_guardedRhs (seen : (reading.peek 0).kind = .pipe) :
    Yields reader reading (guardedRhs separator) fun _ => Phrase.node .guardedRhs := by
  refine Yields.insideKind fun inner sights => ?_
  exact .take (by rw [sights]; exact seen) (by decide) fun _ =>
    .then (spells_separated (by decide) (spells_guardNode spell separator) _) fun _ =>
      spells_signed spell sign

theorem spells_rhs : Spells reader (Grammar.rhs separator) fun _ => Phrase.rhs := by
  have bindings : Spells reader (do
      if (← sees (.keyword .whereWord)) then
        inside .whereClause do
          Script.bump
          localDecls) fun _ => maybe (Phrase.node .whereClause) := fun reading =>
    .ifLook rfl fun seen => .insideKind fun inner sights =>
      .take (by rw [sights]; exact of_decide_eq_true seen) (by decide) (spells_localDecls spell)
  intro reading
  refine Yields.test (watches_sees .pipe) (fun seen => ?_) fun _ => ?_
  · refine .mono (.then (.whileSeen (watches_sees .pipe) seen fun reading seen =>
      yields_guardedRhs spell sign (of_decide_eq_true seen)) fun _ => bindings) fun _ => ?_
    exact mul_le_mul_left le_sup_left _
  · refine .mono (.then (.insideKind fun inner _ => spells_signed spell sign inner)
      fun _ => bindings) fun _ => ?_
    exact mul_le_mul_left le_sup_right _

end Signs

/-! ### Expressions that begin with a keyword or a bracket -/

omit spell in
theorem watches_seesOperatorName :
    Watches reader seesOperatorName fun sights =>
      (decide ((sights 1).kind = .operator) || decide ((sights 1).kind = .qualifiedOperator) ||
        decide ((sights 1).kind = .colon)) && decide ((sights 2).kind = .closeParen) :=
  watches_kindAt_and (watches_kindAt_is 2 fun kind => kind = .closeParen)

theorem hands_parenthesized (seen : (reading.peek 0).kind = .openParen) :
    Hands reader reading reading parenthesized (HasKind isArgument) := by
  refine Hands.nodeIn fun inner sights => ?_
  rw [← sights] at seen
  refine .of_rest (.test watches_seesOperatorName (fun isName => ?_) fun _ => ?_)
  · rw [Bool.and_eq_true] at isName
    refine .onTokenIn (fun kind => kind = .openParen) (decide_eq_true seen) rfl
      fun second onSecond => ?_
    refine .onTokenIn (fun kind => kind = .operator || kind = .qualifiedOperator || kind = .colon)
      (by rw [onSecond]; exact isName.1) rfl fun third onThird => ?_
    refine .onTokenIn (fun kind => kind = .closeParen)
      (by rw [onThird, onSecond]; exact isName.2) rfl fun _ _ => yields_done ?_
    rw [one_mul, mul_assoc]
    exact le_producedIn rfl le_rfl
  · refine .onTokenIn (fun kind => kind = .openParen) (decide_eq_true seen) rfl fun _ _ =>
      .on (yields_expr spell) fun _ _ => .on (spells_expectClosing .paren _) fun _ _ =>
        yields_done ?_
    rw [one_mul, mul_assoc]
    exact le_producedIn rfl le_rfl

theorem hands_conditional (seen : (reading.peek 0).kind = .keyword .ifWord) :
    Hands reader reading reading conditional (HasKind isArgument) := by
  refine Hands.nodeKind rfl fun inner sights => ?_
  exact .take (by rw [sights]; exact seen) (by decide) fun _ => .then (yields_expr spell)
    fun _ _ => .ifExpect (by decide) fun _ => .then (yields_expr spell) fun _ _ =>
      .ifExpect (by decide) fun _ => yields_expr spell

theorem spells_caseBranch :
    Spells reader caseBranch fun _ => Phrase.node .caseBranch := fun _ =>
  .insideKind fun inner _ =>
    .then (spells_separated (by decide) (fun _ => yields_binder spell) inner) fun _ =>
      spells_rhs spell (.inr rfl)

theorem hands_caseExpr (seen : (reading.peek 0).kind = .keyword .caseWord) :
    Hands reader reading reading caseExpr (HasKind isArgument) := by
  refine Hands.nodeKind rfl fun inner sights => ?_
  exact .take (by rw [sights]; exact seen) (by decide) fun _ =>
    .then (spells_separated (by decide) (fun _ => yields_expr spell) _) fun _ _ =>
      .ifExpect (by decide) (spells_someBlock _ (spells_caseBranch spell))

theorem spells_letBindings :
    Spells reader letBindings fun _ => Phrase.node .letBindings := fun _ =>
  .insideKind fun inner _ => spells_localDecls spell inner

theorem hands_letExpr (seen : (reading.peek 0).kind = .keyword .letWord) :
    Hands reader reading reading letExpr (HasKind isArgument) := by
  refine Hands.nodeKind rfl fun inner sights => ?_
  exact .take (by rw [sights]; exact seen) (by decide) fun _ =>
    .then (spells_letBindings spell _) fun _ _ =>
      .ifExpect (by decide) fun _ => yields_expr spell

/-! ### Statements -/

omit spell in
/-- What a statement that begins with `let` adds, by the kind of its node. -/
def letWords (kind : NodeKind) : Language Shape :=
  named .doDiscard expr kind + named .doLet (keyword .letWord * Phrase.node .letBindings) kind

omit spell in
/-- What the bindings of such a statement and their expression spell, if there is one. -/
def letParts (kind? : Option NodeKind) : Language Shape :=
  named (some .exprLet) (production .exprLet) kind? +
    named none (keyword .letWord * Phrase.node .letBindings) kind?

theorem yields_letParts (seen : (reading.peek 0).kind = .keyword .letWord) :
    Yields reader reading (do
      Script.bump
      letBindings
      if (← eat (.keyword .inWord)) then
        ignore (.call .expr)
        pure (some NodeKind.exprLet)
      else pure none) letParts := by
  have result : Spells reader (do
      ignore (.call .expr)
      pure (some NodeKind.exprLet)) (named (some .exprLet) expr) := fun _ =>
    (yields_expr spell).answer (le_named le_rfl)
  have alone : Spells reader (pure none) (named (none : Option NodeKind) 1) := fun _ =>
    yields_pure ⟨rfl, rfl⟩
  refine .mono (.take seen (by decide) fun _ => .then (spells_letBindings spell _) fun _ _ =>
    .ifEat (by decide) result alone) fun kind? => ?_
  rw [mul_named, mul_add, mul_add, mul_named, mul_named, mul_named, mul_named, mul_one]
  exact le_rfl

theorem yields_letStatement (seen : (reading.peek 0).kind = .keyword .letWord) :
    Yields reader reading letStatement letWords := by
  intro fits kind final read
  obtain ⟨⟨isExpr, after⟩, readNode, same⟩ := Option.bind_eq_some_iff.mp read
  cases same
  have produced : ∀ kind, letParts (some kind) ≤ rowsOf (reading.table? reader.setting) kind := by
    rintro kind word (⟨same, member⟩ | ⟨other, -⟩)
    · cases same
      exact production_le_rowsOf rfl _ member
    · cases other
  have parts : ∀ inner, reading.SeesAs inner → Yields reader inner _ letParts :=
    fun inner sights => yields_letParts spell (by rw [sights]; exact seen)
  have unnamed : letParts (some .moduleName) = 0 := by
    refine bot_unique ?_
    rintro word (⟨other, -⟩ | ⟨other, -⟩) <;> cases other
  rcases Yields.node_cases parts produced unnamed fits readNode with
    ⟨kind, rfl, holding⟩ | ⟨rfl, adds⟩
  · refine holding.adds.mono ((one_mono ?_).trans ((le_named le_rfl).trans le_sup_left))
    rintro _ ⟨row, rfl, ⟨same, -⟩ | ⟨other, -⟩⟩
    · cases same
      exact ⟨_, row, rfl, rfl⟩
    · cases other
  · refine adds.mono ?_
    rintro word (⟨other, -⟩ | ⟨-, member⟩)
    · cases other
    · exact .inr ⟨rfl, member⟩

theorem spells_statement : Spells reader statement fun _ => nodeIn isStatement := by
  intro reading
  refine (Hands.nodeIn fun inner _ => ?_).yields.ignore
  refine .test (watches_sees _) (fun seen => ?_) fun _ => .look rfl ?_
  · refine .of_rest (.on (yields_letStatement spell (of_decide_eq_true seen)) fun kind _ =>
      yields_done ?_)
    rw [one_mul]
    rintro word (⟨rfl, member⟩ | ⟨rfl, member⟩) <;> exact ⟨rfl, rfl, member⟩
  · split
    · refine .of_rest (.on (yields_binder spell) fun _ _ =>
        .on (yields_expect (by decide)).ignore fun _ _ => .on (yields_expr spell) fun _ _ =>
          yields_done ?_)
      rw [one_mul, mul_assoc]
      exact le_producedIn rfl le_rfl
    · exact (yields_expr spell).answer (le_producedIn rfl le_rfl)

theorem hands_doExpr
    (seen : (reading.peek 0).kind = .keyword .doWord ∨ (reading.peek 0).kind = .qualifiedDo) :
    Hands reader reading reading doExpr (HasKind isArgument) := by
  refine Hands.nodeKind rfl fun inner sights => ?_
  refine .takeIn _ ?_ rfl
    fun after _ => spells_someBlock _ (spells_statement spell) after
  rw [sights]
  simpa using seen

theorem hands_adoExpr
    (seen : (reading.peek 0).kind = .keyword .adoWord ∨ (reading.peek 0).kind = .qualifiedAdo) :
    Hands reader reading reading adoExpr (HasKind isArgument) := by
  refine Hands.nodeKind rfl fun inner sights => ?_
  refine .takeIn _ ?_ rfl
    fun after _ => .then (spells_block (spells_statement spell) after) fun _ _ =>
      .ifExpect (by decide) fun _ => yields_expr spell
  rw [sights]
  simpa using seen

theorem hands_lambda (seen : (reading.peek 0).kind = .backslash) :
    Hands reader reading reading lambda (HasKind isArgument) := by
  refine Hands.nodeKind rfl fun inner sights => ?_
  refine .take (by rw [sights]; exact seen) (by decide) fun after =>
    .test watches_seesBinderAtom (fun isBinder => ?_)
      fun _ => yields_of_none rfl
  exact .then (.whileSeen watches_seesBinderAtom isBinder fun _ _ => yields_binderAtom spell)
    fun _ _ => .ifExpect (by decide) fun _ => yields_expr spell

/-! ### Operands -/

theorem hands_exprAtom : Hands reader reading reading exprAtom (HasKind isArgument) := by
  refine Hands.seeKind ?_
  split
  · next isLiteral => exact .singleIn TokenKind.isLiteral isLiteral rfl le_rfl rfl
  · split
    case h_1 seen =>
      exact .singleIn _
        (by rw [seen]; rfl) rfl le_rfl rfl
    case h_2 seen =>
      exact .singleIn _
        (by rw [seen]; rfl) rfl le_rfl rfl
    case h_3 seen =>
      exact .singleIn _ (by rw [seen]; rfl) rfl le_rfl rfl
    case h_4 seen =>
      exact .singleIn _ (by rw [seen]; rfl) rfl le_rfl rfl
    case h_5 seen =>
      exact .singleIn _ (decide_eq_true seen) rfl le_rfl rfl
    case h_6 seen =>
      exact .singleIn _ (decide_eq_true seen) rfl le_rfl rfl
    case h_7 seen => exact hands_parenthesized spell seen
    case h_8 seen =>
      refine Hands.nodeKind rfl fun inner sights => ?_
      exact .take (by rw [sights]; exact seen) (by decide) fun after =>
        .then (spells_arrayItems (fun _ => yields_expr spell) after) fun _ =>
          spells_expectClosing .square
    case h_9 seen =>
      refine Hands.nodeKind rfl fun inner sights => ?_
      exact .take (by rw [sights]; exact seen) (by decide) fun after =>
        .then (spells_recordFields (fun _ => yields_expr spell) (field_mono le_sup_left) after)
          fun _ => spells_expectClosing .brace
    case h_10 seen => exact hands_conditional spell seen
    case h_11 seen => exact hands_caseExpr spell seen
    case h_12 seen => exact hands_letExpr spell seen
    case h_13 seen => exact hands_doExpr spell (.inl seen)
    case h_14 seen => exact hands_doExpr spell (.inr seen)
    case h_15 seen => exact hands_adoExpr spell (.inl seen)
    case h_16 seen => exact hands_adoExpr spell (.inr seen)
    case h_17 seen => exact hands_lambda spell seen
    case h_18 => exact hands_of_none rfl
    case h_19 =>
      split
      · exact hands_of_none rfl
      · obtain ⟨answer, looks⟩ : ∃ answer,
            (seesEnd []).read? reader reading = some (answer, reading) :=
          read?_seesEnd [] reading
        refine .look looks ?_
        cases answer <;> exact hands_of_none rfl

omit spell in
theorem watches_seesSelection :
    Watches reader seesSelection
      fun sights => decide ((sights 0).kind = .dot) && (sights 1).kind.isLabel :=
  (watches_sees .dot).and (watches_kindAt_is 1 TokenKind.isLabel)

omit spell in
theorem watches_seesUpdate : Watches reader seesUpdate fun sights =>
    decide ((sights 0).kind = .openBrace) && ((sights 1).kind.isLabel &&
      (decide ((sights 2).kind = .equals) || decide ((sights 2).kind = .openBrace))) :=
  (watches_sees .openBrace).and
    (watches_kindAt_and (watches_kindAt_is 2 fun kind => kind = .equals || kind = .openBrace))

theorem read?_postfixRound {before after : Reading} {step : ForInStep Unit}
    (fits : before.Fits reader.setting)
    (holding : Holding reader.setting before reading (HasKind isArgument))
    (read : Script.read? reader (do
      if (← seesSelection) then
        Script.wrap .exprRecordAccess do
          Script.bump
          Script.bump
        pure (ForInStep.yield ())
      else if (← seesUpdate) then
        Script.wrap .exprRecordUpdate (ignore (.call .update))
        pure (.yield ())
      else pure (.done ())) reading = some (step, after)) :
    Holding reader.setting before after (HasKind isArgument) := by
  have isExpr : nodeIn isArgument ≤ expr :=
    nodeIn_mono fun _ accepted => isExpr_of_isOperand (isOperand_of_isArgument accepted)
  rw [Script.read?_bind, watches_seesSelection reading] at read
  dsimp only [Option.bind_some] at read
  split at read
  · next selects =>
      obtain ⟨⟨_, wrapped⟩, readWrap, same⟩ := Option.bind_eq_some_iff.mp read
      cases same
      rw [Bool.and_eq_true] at selects
      refine (holding.wrap fits (fun inner sights => ?_) (mul_le_mul_left isExpr _)
        readWrap).mono fun _ holds => holds.hasKind rfl
      exact .takeIn _ (by rw [sights]; exact selects.1) rfl
        fun after onAfter => .lastIn TokenKind.isLabel
          (by rw [onAfter, sights]; exact selects.2) rfl
  · rw [Script.read?_bind, watches_seesUpdate reading] at read
    dsimp only [Option.bind_some] at read
    split at read
    · next updates =>
        obtain ⟨⟨_, wrapped⟩, readWrap, same⟩ := Option.bind_eq_some_iff.mp read
        cases same
        rw [Bool.and_eq_true, decide_eq_true_eq] at updates
        refine (holding.wrap fits (fun inner sights => ?_) (mul_le_mul_left isExpr _)
          readWrap).mono fun _ holds => holds.hasKind rfl
        exact (spell.update inner (by rw [sights]; exact updates.1)).ignore
    · cases read
      exact holding

theorem hands_exprPostfix : Hands reader reading reading exprPostfix (HasKind isArgument) := by
  refine (hands_exprAtom spell).bind fun after holding fits answer final read => ?_
  obtain ⟨⟨_, last⟩, readLoop, same⟩ := Option.bind_eq_some_iff.mp read
  cases same
  exact ⟨rfl, iterate?_keeps (fun _ after => Holding reader.setting reading after _)
    (fun _ _ _ _ holding once => read?_postfixRound spell fits holding once)
    reader.setting.rounds () after holding readLoop⟩

theorem yields_updateRule (seen : (reading.peek 0).kind = .openBrace) :
    Yields reader reading updateRule fun _ => update := by
  have value : Spells reader (do
      if (← sees .openBrace) then
        if (← enter) then
          ignore (.call .update)
          Script.leave
      else if (← expect .equals) then ignore (.call .expr))
      fun _ => update + token .equals * expr := by
    intro reading
    refine .test (watches_sees .openBrace) (fun seen => ?_) fun _ => ?_
    · refine .mono (.enter fun inner sights => .thenLeave (spell.update inner ?_).ignore)
        fun _ => le_sup_left
      rw [sights]
      exact of_decide_eq_true seen
    · exact .mono (.ifExpect (by decide) fun _ => yields_expr spell) fun _ => le_sup_right
  have field : Spells reader (inside .recordUpdateField do
      if (← kind).isLabel then Script.bump else missing [.lowerName]
      if (← sees .openBrace) then
        if (← enter) then
          ignore (.call .update)
          Script.leave
      else if (← expect .equals) then ignore (.call .expr))
      fun _ => Phrase.node .recordUpdateField := by
    intro reading
    refine .insideKind fun inner _ => .seeKind ?_
    split
    · next isLabel => exact .takeIn TokenKind.isLabel isLabel rfl fun after _ => value after
    · exact yields_of_none rfl
  exact .take seen (by decide) fun _ => .then (spells_separated (by decide) field _) fun _ _ =>
    .answer (spells_expectClosing .brace _) le_rfl

theorem spells_argument : Spells reader argument fun _ =>
    Phrase.node .typeArg + nodeIn isArgument := by
  intro reading
  refine .test (watches_sees .atSign) (fun seen => ?_) fun _ => ?_
  · refine .mono (.insideKind fun inner sights => ?_) fun _ => le_sup_left
    exact .take (by rw [sights]; exact of_decide_eq_true seen) (by decide) fun _ =>
      yields_typeAtom spell
  · exact (hands_exprPostfix spell).yields.ignore.mono fun _ => le_sup_right

omit spell in
theorem watches_seesArgument : Watches reader seesArgument fun sights =>
    isExprAtomStart (sights 0).kind || decide ((sights 0).kind = .atSign) :=
  watches_kindAt_is 0 fun kind => isExprAtomStart kind || kind = .atSign

theorem hands_exprApp : Hands reader reading reading exprApp (HasKind isOperand) := by
  refine Hands.wrapped (hands_exprPostfix spell) watches_seesArgument (fun inner seen => ?_)
    (mul_le_mul_left (nodeIn_mono fun _ accepted => ?_) _)
    (fun _ accepted => accepted.mono fun _ => isOperand_of_isArgument)
    fun _ holds => holds.hasKind rfl
  · exact .whileSeen watches_seesArgument seen fun reading _ => spells_argument spell reading
  · exact isExpr_of_isOperand (isOperand_of_isArgument accepted)

theorem hands_operandRule : Hands reader reading reading operandRule (HasKind isOperand) := by
  refine .test (watches_seesOperator "-") (fun seen => ?_) fun _ => hands_exprApp spell
  refine .enter fun inner sights => .nodeKind rfl fun body sightsBody => ?_
  have isMinus : isMinus (body.peek 0) = true := by
    rw [sightsBody, sights]
    exact seen
  exact .bump Grammar.isMinus isMinus (notEnd_of_isMinus isMinus) fun after _ =>
    .thenLeave (spell.operand after).yields.ignore

theorem hands_exprRule : Hands reader reading reading exprRule (HasKind NodeKind.isExpr) := by
  have typed : one (HasKind (Level.accepts .expr)) * (token .doubleColon * type) ≤
      production .exprTyped :=
    mul_le_mul_left (nodeIn_mono fun _ => isExpr_of_accepts) _
  exact .enter fun inner _ => .thenLeave (Hands.suffixed ((spell.chain .expr 0 none).hands inner)
    (fun _ seen => .take seen (by decide) fun _ => yields_type spell) typed
    (fun _ accepted => accepted.mono fun _ => isExpr_of_accepts) fun _ holds => holds.hasKind rfl)

end Expressions

end Offside.Grammar
