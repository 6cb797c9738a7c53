import Offside.Proofs.Conduct

/-!
# The grammar does what productions do

Every production is disciplined: before it takes a token it has looked at its
kind, and between two nodes that enclose whole productions it has gone one
level deeper.
-/

namespace Offside.Grammar

variable {conduct : Conduct} {phase : Phase} {encloses behind : Bool} {outlook : Outlook}
  {count : Nat}

/-! ### Operator chains -/

instance : Screens TokenKind.isName where
  proper kind named := by
    cases kind with
    | error | eof | layoutStart | layoutSep | layoutEnd => cases named
    | _ => rfl

set_option synthInstance.maxSize 256 in
instance (level : Level) (operator : ChainOperator) (conflict : Option FixityFault) :
    Disciplined conduct encloses (.tokens (count + 1)) (operatorNode level operator conflict) :=
  .intro fun state holds => by
    have spelled : Disciplined conduct .spelling (.tokens (count + 1)) (do
        if (← sees .backtick) then backtickedName else Script.bump) := inferInstance
    have named : Disciplined conduct encloses (.tokens (count + 1)) (inside .operator do
        if (← sees .backtick) then backtickedName else Script.bump) := inferInstance
    have proceeds := spelled.proceeds _ holds.entered
    rw [operatorNode, run_look, run_bind, run_bind]
    cases conflict with
    | some problem => exact .blame encloses problem _ proceeds
    | none =>
      dsimp only
      split
      · exact .blame encloses _ _ proceeds
      · exact named.proceeds state holds

instance (level : Level) : Decided (isLoose level.nodeKind) := by
  cases level <;> exact ⟨rfl⟩

theorem isProper_of_isOperatorStart {kind : TokenKind} (starts : isOperatorStart kind = true) :
    isProper kind = true := by
  cases kind with
  | error | eof | layoutStart | layoutSep | layoutEnd => cases starts
  | _ => rfl

variable {state : State} {item : Script Unit} {scene : Scene}

section Chains

variable {operand : Script Bool} {level : Level} {least : Nat} {parent : Option ChainOperator}

theorem run_chainRound (value : Bool × Option ChainOperator)
    (finished : value.1 = true → Finished state) :
    Proceeds conduct.scene.setting conduct.asks encloses state
        ((chainRound level least parent value).run conduct.scene.setting conduct.run state).2 ∧
      (((chainRound level least parent value).run conduct.scene.setting conduct.run
          state).1.value.1 = true →
        Finished ((chainRound level least parent value).run conduct.scene.setting conduct.run
          state).2) := by
  rw [chainRound, run_bind, run_operatorAhead]
  cases seen : operatorSeen conduct.scene level state with
  | none => exact ⟨.stay _ state, finished⟩
  | some operator =>
    have known := Outlook.holds_one (isProper_of_isOperatorStart (isOperatorStart_of_seen seen))
    dsimp only
    split
    · exact ⟨.stay _ state, finished⟩
    · have joining : Joining conduct encloses value.1 (.tokens 1) (do
          around value.1 level.nodeKind do
            operatorNode level operator (conflictOf parent value.2 operator)
            rightOperand level operator
          pure (ForInStep.yield (true, some operator))) := inferInstance
      have leaving : Leaving conduct value.1 (do
          around value.1 level.nodeKind do
            operatorNode level operator (conflictOf parent value.2 operator)
            rightOperand level operator
          pure (ForInStep.yield (true, some operator))) := inferInstance
      exact ⟨joining.proceeds state finished known, fun _ => leaving.leaves state finished⟩

theorem run_chain (first : Disciplined conduct encloses outlook operand)
    (closing : Closing conduct false operand) (holds : outlook.Holds conduct.scene state) :
    Proceeds conduct.scene.setting conduct.asks encloses state
        ((chain operand level least parent).run conduct.scene.setting conduct.run state).2 ∧
      (((chain operand level least parent).run conduct.scene.setting conduct.run state).1 = true →
        Finished ((chain operand level least parent).run conduct.scene.setting conduct.run
          state).2) := by
  refine iterate_holds (fun (value : Bool × Option ChainOperator) inner =>
    Proceeds conduct.scene.setting conduct.asks encloses state inner ∧
      (value.1 = true → Finished inner)) (fun value inner before => ?_) _ _ _
    ⟨first.proceeds state holds, closing.closes state (by rintro ⟨⟩)⟩
  exact (run_chainRound value before.2).imp_left before.1.trans

instance [first : Disciplined conduct encloses outlook operand]
    [closing : Closing conduct false operand] :
    Disciplined conduct encloses outlook (chain operand level least parent) :=
  .intro fun _ holds => (run_chain first closing holds).1

instance [first : Disciplined conduct true (.tokens 0) operand]
    [closing : Closing conduct false operand] :
    Closing conduct behind (chain operand level least parent) :=
  ⟨fun state _ => (run_chain first closing (Outlook.holds_none state)).2⟩

end Chains

/-! ### Types -/

instance : Telling seesNegativeInteger outlook (.tokens 2) where
  tells _ _ _ _ seen := by
    rw [run_seesNegativeInteger, Bool.and_eq_true, decide_eq_true_eq] at seen
    exact Outlook.holds_two (by rw [kindAhead_of_seesOperator seen.1]) (by rw [seen.2])

instance : Screens TokenKind.isLabel where
  proper kind label := by
    cases kind with
    | error | eof | layoutStart | layoutSep | layoutEnd => cases label
    | _ => rfl

theorem telling_nameInParens {accepts : TokenKind → Bool}
    (proper : ∀ name, accepts name = true → isProper name = true) :
    Telling (do
      let name ← kindAt 1
      if accepts name = true then return (← kindAt 2) = .closeParen else pure false)
      (.tokens (count + 1)) (.tokens 3) where
  tells scene _ state holds seen := by
    rw [run_look] at seen
    split at seen
    · next accepted =>
        have closes : kindAhead scene state 2 = .closeParen := of_decide_eq_true seen
        refine ((Outlook.holds_one (holds 0 (Nat.succ_pos count))).succ (proper _ accepted)).succ ?_
        rw [closes]
    · cases seen

instance : Telling seesTypeOperatorName (.tokens (count + 1)) (.tokens 3) := by
  refine telling_nameInParens fun name accepted => ?_
  cases name with
  | error | eof | layoutStart | layoutSep | layoutEnd => cases accepted
  | _ => rfl

set_option synthInstance.maxSize 4096 in
instance : Disciplined conduct encloses outlook typeAtom := by
  refine .kind (fun kind proper => ?_) (fun kind mark => ?_) (fun problem => inferInstance)
    inferInstance
  · split <;> first | infer_instance | cases proper
  · split <;> first | infer_instance | cases mark

instance : Closing conduct behind typeAtom := by
  refine .bind fun kind => ?_
  split <;> infer_instance

set_option synthInstance.maxSize 256 in
instance : Disciplined conduct encloses outlook typeVarBinding := by
  have body : Disciplined conduct encloses outlook (do
      match (← kind) with
      | .openParen =>
        Script.bump
        ignore (eat .atSign)
        ignore (expect .lowerName)
        if (← expect .doubleColon) then ignore (Script.call .type)
        expectClosing .paren
      | .atSign =>
        Script.bump
        ignore (expect .lowerName)
      | _ => ignore (expect .lowerName)) := by
    refine .kind (fun kind _ => ?_) (fun kind mark => ?_) (fun problem => inferInstance)
      inferInstance
    · split <;> infer_instance
    · split <;> first | infer_instance | cases mark
  unfold typeVarBinding
  infer_instance

instance : AllProper quantifiedStarts := by
  unfold quantifiedStarts
  infer_instance

instance : AllProper classNames := by
  unfold classNames
  infer_instance

/-! ### Binders -/

instance : Telling seesNegativeNumber outlook (.tokens 2) where
  tells _ _ _ _ seen := by
    rw [run_seesNegativeNumber, Bool.and_eq_true, Bool.or_eq_true, decide_eq_true_eq,
      decide_eq_true_eq] at seen
    have minus := kindAhead_of_seesOperator seen.1
    refine (Outlook.holds_one (by rw [minus])).succ ?_
    rcases seen.2 with isInteger | isNumber
    · rw [isInteger]
    · rw [isNumber]

set_option synthInstance.maxSize 256 in
instance : Disciplined conduct encloses outlook binderAtomBody := by
  refine .kind (fun kind _ => ?_) (fun kind mark => ?_) (fun problem => ?_) ?_
  · split
    · infer_instance
    · split <;> infer_instance
  · split
    · next literal =>
        cases kind with
        | layoutStart | layoutSep | layoutEnd => cases literal
        | _ => cases mark
    · split <;> first | infer_instance | cases mark
  · split
    · next literal => cases literal
    · infer_instance
  · split
    · next literal => cases literal
    · infer_instance

instance : Answers (Option.all isConstruct) binderAtomBody := by
  refine .bind fun kind => ?_
  split
  · infer_instance
  · split <;> infer_instance

/-! ### Expressions and right-hand sides -/

instance : Telling seesOperatorName (.tokens (count + 1)) (.tokens 3) := by
  refine telling_nameInParens fun name accepted => ?_
  cases name with
  | error | eof | layoutStart | layoutSep | layoutEnd => cases accepted
  | _ => rfl

set_option synthInstance.maxSize 1024 in
instance : Disciplined conduct true outlook exprAtom := by
  refine .kind (fun kind proper => ?_) (fun kind mark => ?_) (fun problem => ?_) ?_
  · split
    · infer_instance
    · split <;> first | infer_instance | cases proper
  · split
    · next literal =>
        cases kind with
        | layoutStart | layoutSep | layoutEnd => cases literal
        | _ => cases mark
    · split <;> first | infer_instance | cases mark
  · split
    · next literal => cases literal
    · infer_instance
  · split
    · next literal => cases literal
    · infer_instance

instance : Closing conduct behind exprAtom := by
  refine .bind fun kind => ?_
  split
  · infer_instance
  · split <;> infer_instance

instance : Telling seesSelection outlook (.tokens 2) where
  tells scene _ state _ seen := by
    rw [run_seesSelection, Bool.and_eq_true, decide_eq_true_eq] at seen
    exact (Outlook.holds_one (by rw [seen.1])).succ (Screens.proper _ seen.2)

instance : Telling seesUpdate outlook (.tokens 1) where
  tells scene _ state _ seen := Outlook.holds_one (by rw [kindAhead_of_seesUpdate seen])

/-! ### Declarations -/

instance : Telling seesRoles outlook (.tokens 2) where
  tells _ _ _ _ seen := by
    rw [run_seesRoles, Bool.and_eq_true, decide_eq_true_eq] at seen
    exact Outlook.holds_two (by rw [kindAhead_of_seesWord seen.1]) (by rw [seen.2])

instance : Disciplined conduct encloses outlook eatSuperclassArrow := by
  refine .sight (fun sight isArrow => ?_) inferInstance inferInstance
  rw [isSuperclassArrow, Bool.and_eq_true, decide_eq_true_eq] at isArrow
  rw [isArrow.1]

set_option synthInstance.maxSize 8192 in
instance : Disciplined conduct .top (.tokens (count + 1)) classDecl := by
  unfold classDecl
  infer_instance

theorem take_ahead_of_kindAhead (scene : Scene) {count : Nat}
    (onward : ∀ index < count, kindAhead scene state index ≠ .eof) :
    (state.ahead.take count).map (fun lexeme => lexeme.token.kind) =
      (List.range count).map (kindAhead scene state) := by
  refine List.ext_getElem? fun index => ?_
  rw [List.getElem?_map, List.getElem?_map]
  rcases Nat.lt_or_ge index count with bound | beyond
  · have further := onward index bound
    rw [List.getElem?_take_of_lt bound, List.getElem?_range bound]
    rw [kindAhead, State.tokenAt] at further
    cases found : state.ahead[index]? with
    | none =>
      rw [found] at further
      exact absurd rfl further
    | some lexeme =>
      simp only [Option.map_some, kindAhead, State.tokenAt, found]
  · rw [List.getElem?_eq_none (Nat.le_trans (List.length_take_le _ _) beyond),
      List.getElem?_eq_none (by rw [List.length_range]; exact beyond)]
    rfl

/-- An `else` with the separator behind it, if they are ahead. -/
def elseLink : Script (ForInStep Unit) := do
  if (← eat (.keyword .elseWord)) then
    ignore (eat .layoutSep)
    pure (.yield ())
  else pure (.done ())

/-- What joins an instance to the next one, if there is one. -/
def instanceLink : Script (ForInStep Unit) := do
  let next ← kindAt 1
  if (← sees .layoutSep) && next = .keyword .elseWord then
    Script.bump
    elseLink
  else elseLink

theorem kindAhead_bump (state : State) (index : Nat) :
    kindAhead scene (state.bump scene.setting) index = kindAhead scene state (index + 1) := by
  rw [kindAhead, tokenAt_bump, kindAhead]

theorem run_elseLink {rules : Rule → State → Bool × State}
    (isElse : kindAhead scene state 0 = .keyword .elseWord) :
    (elseLink.run scene.setting rules state).2 =
      if kindAhead scene state 1 = .layoutSep then (State.bump scene.setting)^[2] state
      else state.bump scene.setting := by
  rw [elseLink, run_bind, run_eat_of_sees isElse, if_pos rfl, run_bind, run_ignore,
    ← kindAhead_bump]
  split
  · next isSep =>
      rw [run_eat_of_sees isSep]
      rfl
  · next other =>
      rw [run_eat_of_not_sees other]
      rfl

theorem proceeds_joint {asks : Bool} {kinds : List TokenKind} (joint : kinds ∈ joints)
    (seen : (List.range kinds.length).map (kindAhead scene state) = kinds) :
    Proceeds scene.setting asks .links state
      ((State.bump scene.setting)^[kinds.length] state) := by
  have noEnd : ∀ kinds ∈ joints, TokenKind.eof ∉ kinds := by decide
  refine .join joint ((take_ahead_of_kindAhead scene fun index bound atEnd => ?_).trans seen)
  refine noEnd kinds joint ?_
  rw [← seen, ← atEnd]
  exact List.mem_map_of_mem (List.mem_range.mpr bound)

theorem proceeds_instanceLink (state : State) :
    Proceeds conduct.scene.setting conduct.asks .links state
      (instanceLink.run conduct.scene.setting conduct.run state).2 := by
  rw [instanceLink, run_look, run_look]
  split
  · next both =>
      obtain ⟨isSep, isElse⟩ := Bool.and_eq_true_iff.mp both
      have first : kindAhead conduct.scene state 0 = .layoutSep := of_decide_eq_true isSep
      have second : kindAhead conduct.scene state 1 = .keyword .elseWord :=
        of_decide_eq_true isElse
      refine Eq.mpr (congrArg _ (run_elseLink ((kindAhead_bump state 0).trans second))) ?_
      rw [kindAhead_bump]
      split
      · next third =>
          refine proceeds_joint (List.mem_of_getElem? (i := 2) rfl) ?_
          simp [List.range_succ, first, second, third]
      · refine proceeds_joint (List.mem_of_getElem? (i := 0) rfl) ?_
        simp [List.range_succ, first, second]
  · by_cases isElse : kindAhead conduct.scene state 0 = .keyword .elseWord
    · rw [run_elseLink isElse]
      split
      · next second =>
          refine proceeds_joint (List.mem_of_getElem? (i := 1) rfl) ?_
          simp [List.range_succ, isElse, second]
      · refine .bump (Phase.allows_of_isProper _ ?_)
        rw [State.current, show (state.tokenAt conduct.scene.setting 0).kind = _ from isElse]
    · rw [elseLink, run_bind, run_eat_of_not_sees isElse]
      exact .stay .links state

set_option synthInstance.maxSize 16384 in
instance : Disciplined conduct .top outlook instanceChain :=
  .intro fun state _ => by
    have declared : Disciplined conduct .links (.tokens 0) instanceDecl := inferInstance
    have rounds : Disciplined conduct .links (.tokens 0)
        (Script.loop () fun _ => instanceDecl >>= fun _ => instanceLink) :=
      .loop fun _ => declared.bind fun _ => .intro fun inner _ => proceeds_instanceLink inner
    exact .chain (rounds.proceeds _ (Outlook.holds_none _))

instance : Disciplined conduct encloses outlook precedence := by
  refine .sight (fun sight isInteger => ?_) inferInstance inferInstance
  rw [isInteger]

instance : Screens DeclaredFixity.isOperator where
  proper kind isOperator := by
    cases kind with
    | error | eof | layoutStart | layoutSep | layoutEnd => cases isOperator
    | _ => rfl

instance (space : Namespace) (associativity : Associativity) (precedence : Option Nat) :
    Disciplined conduct encloses outlook
      (declaredOperator space associativity precedence) := by
  refine .sight (fun sight isOperator => Screens.proper _ isOperator) (fun sight => ?_)
    inferInstance
  cases precedence <;> (dsimp only; infer_instance)

instance : Telling seesKindItem outlook (.tokens 2) where
  tells _ _ _ _ seen := by
    rw [run_seesKindItem, Bool.and_eq_true, decide_eq_true_eq] at seen
    exact Outlook.holds_two (by rw [kindAhead_of_seesWord seen.1]) (by rw [seen.2])

set_option synthInstance.maxSize 256 in
instance : Disciplined conduct encloses outlook importItem := by
  refine .kind (fun kind _ => ?_) (fun kind mark => ?_) (fun problem => inferInstance)
    inferInstance
  · split <;> infer_instance
  · split <;> first | infer_instance | cases mark

set_option synthInstance.maxSize 16384 in
instance : Disciplined conduct .top outlook decl := by
  refine .kind (fun kind _ => ?_) (fun kind mark => ?_) (fun problem => inferInstance)
    inferInstance
  · split <;> infer_instance
  · split <;> first | infer_instance | cases mark

/-! ### Rules -/

set_option synthInstance.maxSize 65536 in
instance (rule : Rule) : Disciplined conduct rule.encloses rule.outlook (scriptOf rule) := by
  cases rule with
  | chain level least parent =>
    cases level <;> (unfold scriptOf operandOf Rule.encloses Rule.outlook; infer_instance)
  | _ => unfold scriptOf Rule.encloses Rule.outlook; infer_instance

set_option synthInstance.maxSize 2048 in
instance (rule : Rule) : Closing conduct behind (scriptOf rule) := by
  cases rule with
  | chain level least parent =>
    cases level <;> (unfold scriptOf operandOf; infer_instance)
  | _ => unfold scriptOf; infer_instance

theorem conducts_runRule (scene : Scene) (asks : Bool) (turns : 0 < scene.setting.rounds)
    (bound : Nat) :
    (∀ (rule : Rule) (state : State), rule.outlook.Holds scene state →
      Proceeds scene.setting asks rule.encloses state
        (runRule scene.setting scriptOf bound rule state).2) ∧
      ∀ (rule : Rule) (state : State),
        (runRule scene.setting scriptOf bound rule state).1 = true →
          Finished (runRule scene.setting scriptOf bound rule state).2 := by
  induction bound with
  | zero => exact ⟨fun _ state _ => .report _ state [], by rintro _ _ ⟨⟩⟩
  | succ bound ih =>
    let deeper : Conduct :=
      ⟨scene, asks, turns, runRule scene.setting scriptOf bound, ih.1, ih.2⟩
    have disciplined (rule : Rule) :
        Disciplined deeper rule.encloses rule.outlook (scriptOf rule) := inferInstance
    have closing (rule : Rule) : Closing deeper false (scriptOf rule) := inferInstance
    exact ⟨fun rule state holds => (disciplined rule).proceeds state holds,
      fun rule state => (closing rule).closes state (by rintro ⟨⟩)⟩

/-! ### Modules -/

set_option synthInstance.maxSize 512 in
instance : Disciplined conduct .top (.tokens (count + 1)) moduleHeader := by
  infer_instance

instance : Decided (TokenKind.isBlockMark .layoutStart) :=
  ⟨rfl⟩

instance : Decided (TokenKind.isBlockMark .layoutSep) :=
  ⟨rfl⟩

instance : Decided (TokenKind.isBlockMark .layoutEnd) :=
  ⟨rfl⟩

set_option synthInstance.maxSize 512 in
theorem Disciplined.moduleItems (asks : conduct.asks = true) :
    Disciplined conduct .top outlook moduleItems := by
  have asked : Disciplined conduct .top (.tokens 0) Script.poll :=
    .intro fun state _ => .ask state asks
  infer_instance

instance : Telling seesMore outlook .onward where
  tells scene _ state _ seen := by
    exact (of_decide_eq_true seen : kindAhead scene state 0 ≠ .eof)

theorem run_leftover (few : state.ahead.length < conduct.scene.setting.rounds) :
    Proceeds conduct.scene.setting conduct.asks .top state
        ((whileSeen seesMore (misfit [])).run conduct.scene.setting conduct.run state).2 ∧
      kindAhead conduct.scene
        ((whileSeen seesMore (misfit [])).run conduct.scene.setting conduct.run state).2 0 =
          .eof := by
  refine iterate_ends (fun _ => Proceeds conduct.scene.setting conduct.asks .top state)
    (fun _ inner => Proceeds conduct.scene.setting conduct.asks .top state inner ∧
      kindAhead conduct.scene inner 0 = .eof)
    (fun _ inner before => ?_) conduct.scene.setting.rounds () state (.stay _ state) few
  have seen : (seesMore.run conduct.scene.setting conduct.run inner) =
      (decide (kindAhead conduct.scene inner 0 ≠ .eof), inner) := rfl
  rw [run_bind, seen]
  by_cases atEnd : kindAhead conduct.scene inner 0 = .eof
  · rw [decide_eq_false (not_not_intro atEnd)]
    exact .inl ⟨(), inner, rfl, before, atEnd⟩
  · rw [decide_eq_true atEnd]
    have skipped : Proceeds conduct.scene.setting conduct.asks .top inner _ :=
      .skipOne [] rfl (.inl rfl) atEnd
    exact .inr ⟨(), _, rfl, before.trans skipped,
      skipped.consumes.shorter (position_skipOver atEnd _ [] 0)⟩

/--
A module is read as productions read, up to the end of the text, which is
taken last unless the run is given up.
-/
theorem proceeds_wholeModule (asks : conduct.asks = true)
    (few : state.ahead.length < conduct.scene.setting.rounds) :
    ∃ last, Proceeds conduct.scene.setting conduct.asks .top state last ∧
      ((wholeModule.run conduct.scene.setting conduct.run state).1 = true ∧
          (wholeModule.run conduct.scene.setting conduct.run state).2 = last ∨
        kindAhead conduct.scene last 0 = .eof ∧
          wholeModule.run conduct.scene.setting conduct.run state =
            (false, last.bump conduct.scene.setting)) := by
  have items : Disciplined conduct .top (.tokens 0) moduleItems := .moduleItems asks
  have proceeds := items.proceeds state (Outlook.holds_none state)
  rw [run_bind]
  generalize moduleItems.run conduct.scene.setting conduct.run state = outcome at proceeds ⊢
  obtain ⟨cancelled, after⟩ := outcome
  cases cancelled with
  | true => exact ⟨after, proceeds, .inl ⟨rfl, rfl⟩⟩
  | false =>
    obtain ⟨leftover, atEnd⟩ := run_leftover (Nat.lt_of_le_of_lt proceeds.consumes.fewer few)
    exact ⟨_, proceeds.trans leftover, .inr ⟨atEnd, rfl⟩⟩

end Offside.Grammar
