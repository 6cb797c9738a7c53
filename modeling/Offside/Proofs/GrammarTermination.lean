import Offside.Proofs.Cancellation
import Offside.Proofs.Termination

/-!
# Parsing ends

Every production runs to its end from wherever it is called: it enters only
rules that it may enter, and its loops take a token in every round but the last.
So the bounds of the machine are never reached, and a run that is not given up
takes every token that the grammar sees, the end of the text included.
-/

namespace Offside.Grammar

variable {course : Course} {limit : Nat} {outlook : Outlook} {count : Nat}

/-! ### Operator chains -/

set_option synthInstance.maxSize 256 in
instance (level : Level) (operator : ChainOperator) (conflict : Option FixityFault) :
    Completing course limit outlook (operatorNode level operator conflict) := by
  cases conflict <;> infer_instance

variable {declares : Bool} {scene : Scene} {level : Level} {state : State} {item : Script Unit}

instance (level : Level) : Decided (mayClose declares level.nodeKind) := by
  cases level <;> exact ⟨rfl⟩

instance (priority := high) (level : Level) (operator : ChainOperator)
    (conflict : Option FixityFault) {α : Type} {next : Unit → Script α}
    [later : ∀ value, Completing course 5 (.tokens 0) (next value)] :
    Completing course limit (.tokens (count + 1))
      (operatorNode level operator conflict >>= next) :=
  .bind_of_consuming inferInstance inferInstance later

theorem outlook_of_seen {operator : ChainOperator}
    (seen : operatorSeen scene level state = some operator) :
    (Outlook.tokens 1).Holds scene state :=
  Outlook.holds_one (isProper_of_isOperatorStart (isOperatorStart_of_seen seen))

theorem Meets.operatorAhead {α : Type} {demand : Demand α} {absent : Script α}
    {present : ChainOperator → Script α} (first : Meets demand outlook absent)
    (second : ∀ operator, Meets demand (.tokens 1) (present operator)) :
    Meets demand outlook (do
      match (← operatorAhead level) with
      | none => absent
      | some operator => present operator) where
  meets state ready holds := by
    refine demand.look inferInstance ?_
    rw [run_operatorAhead]
    cases seen : operatorSeen demand.scene level state with
    | none => exact first.meets state ready holds
    | some operator => exact (second operator).meets state ready (outlook_of_seen seen)

set_option synthInstance.maxSize 256 in
instance {operand : Script Bool} [first : Completing course limit outlook operand]
    (level : Level) (least : Nat) (parent : Option ChainOperator) :
    Completing course limit outlook (chain operand level least parent) := by
  refine first.bind fun finished => .bind (.loop (fun value => ?_) fun value => ?_) fun _ =>
    inferInstance
  · exact .operatorAhead inferInstance fun operator => by
      infer_instance
  · exact .operatorAhead inferInstance fun operator => by
      infer_instance

/-! ### Types -/

set_option synthInstance.maxSize 4096 in
instance : Completing course limit outlook typeAtom := by
  refine .kind (fun kind _ => ?_) (fun kind mark => ?_) (fun problem => inferInstance)
    inferInstance
  · split <;> infer_instance
  · split <;> first | infer_instance | cases mark

theorem position_typeAtom_of_start (ready : course.Ready limit state)
    (starts : isTypeAtomStart (kindAhead course.scene state 0) = true) :
    course.Takes typeAtom state := by
  have known : (Outlook.tokens 1).Holds course.scene state := by
    refine Outlook.holds_one ?_
    cases kind : kindAhead course.scene state 0 with
    | error | eof | layoutStart | layoutSep | layoutEnd =>
      rw [kind] at starts
      cases starts
    | _ => rfl
  refine position_kind ?_
  cases kind : kindAhead course.scene state 0 with
  | opening bracket =>
    cases bracket with
    | paren =>
      exact position_enter (Consuming.further _ ready.deeper
        (known.of_kindAhead fun _ => rfl)) (by rw [kind]; rfl)
    | brace => exact Consuming.further state ready known
    | square =>
      rw [kind] at starts
      cases starts
  | lowerName | upperName | qualifiedUpper | underscore | hole | string | rawString | integer =>
    exact Consuming.further state ready known
  | _ =>
    rw [kind] at starts
    cases starts

theorem position_typeAtom (ready : course.Ready limit state)
    (seen : (seesTypeAtom.run course.scene.setting course.run state).1 = true) :
    course.Takes typeAtom state := by
  rw [run_look] at seen
  split at seen
  · next starts => exact position_typeAtom_of_start ready starts
  · have known : (Outlook.tokens 2).Holds course.scene state :=
      Telling.tells course.scene course.run state (Outlook.holds_none state) seen
    rw [run_seesNegativeInteger] at seen
    have isMinus := kindAhead_of_seesOperator (Bool.and_eq_true_iff.mp seen).1
    refine position_kind ?_
    rw [isMinus]
    rw [Course.Takes, run_bind, run_seesNegativeInteger, seen, if_pos rfl]
    exact Consuming.further state ready known

instance : Pressing course limit outlook (do
    if (← seesTypeAtom) then
      ignore typeAtom
      pure (ForInStep.yield ())
    else pure (.done ())) :=
  .test fun _ ready seen => position_typeAtom ready seen

set_option synthInstance.maxSize 512 in
instance : Completing course limit outlook typeVarBinding := by
  refine .inside (.kind (fun kind _ => ?_) (fun kind mark => ?_) (fun problem => inferInstance)
    inferInstance)
  · split <;> infer_instance
  · split <;> first | infer_instance | cases mark

theorem position_typeVarBinding (ready : course.Ready limit state)
    (starts : kindAhead course.scene state 0 ∈ quantifiedStarts) :
    course.Takes typeVarBinding state := by
  have same : kindAhead course.scene (entered course.scene state) 0 =
      kindAhead course.scene state 0 := kindAhead_takeTrivia state 0
  have known : (Outlook.tokens 1).Holds course.scene (entered course.scene state) := by
    refine Outlook.holds_one ?_
    rw [same]
    exact AllProper.proper _ starts
  rw [← same] at starts
  refine position_inside (position_kind ?_)
  rcases List.mem_cons.mp starts with isName | later
  · rw [isName]
    rw [Course.Takes, run_ignore, run_expect_of_sees isName]
    exact position_bump (Lasting.onward known)
  · rcases List.mem_cons.mp later with isParen | last
    · rw [isParen]
      exact Consuming.further _ ready.entered known
    · rw [List.mem_singleton.mp last]
      exact Consuming.further _ ready.entered known

instance : Pressing course limit outlook (do
    if (← seesAny quantifiedStarts) then
      typeVarBinding
      pure (ForInStep.yield ())
    else pure (.done ())) :=
  .test fun _ ready seen => position_typeVarBinding ready (List.contains_iff_mem.mp seen)

/-! ### Binders -/

set_option synthInstance.maxSize 1024 in
instance : Completing course limit outlook binderAtomBody := by
  refine .kind (fun kind _ => ?_) (fun kind mark => ?_) (fun problem => inferInstance)
    inferInstance
  · split
    · infer_instance
    · split <;> infer_instance
  · split
    · next literal =>
        cases kind with
        | layoutStart | layoutSep | layoutEnd => cases literal
        | _ => cases mark
    · split <;> first | infer_instance | cases mark

instance : Answers (Option.all (mayClose declares)) binderAtomBody := by
  refine .bind fun kind => ?_
  split
  · infer_instance
  · split <;> infer_instance

theorem isEnding_of_isBinderAtomStart {kind : TokenKind} (starts : isBinderAtomStart kind = true) :
    isEnding kind = false ∧ isProper kind = true := by
  cases kind with
  | keyword word => cases word <;> first | exact ⟨rfl, rfl⟩ | cases starts
  | _ => first | exact ⟨rfl, rfl⟩ | cases starts

theorem kindAhead_of_minus {digits : Bool}
    (minus : ((state.peek scene.setting 0).kind = .operator &&
      (state.peek scene.setting 0).text = "-" && digits) = true) :
    kindAhead scene state 0 = .operator :=
  of_decide_eq_true (Bool.and_eq_true_iff.mp (Bool.and_eq_true_iff.mp minus).1).1

theorem position_binderAtomBody_of_start (ready : course.Ready limit state)
    (starts : isBinderAtomStart (kindAhead course.scene state 0) = true) :
    course.Takes binderAtomBody state := by
  have known := Outlook.holds_one (isEnding_of_isBinderAtomStart starts).2
  refine position_kind ?_
  split
  · exact Consuming.further _ ready known
  · next other =>
      unfold isBinderAtomStart at starts
      rw [Bool.eq_false_of_not_eq_true other] at starts
      cases kind : kindAhead course.scene state 0 with
      | underscore | lowerName | upperName | qualifiedUpper =>
        exact Consuming.further _ ready known
      | opening bracket => cases bracket <;> exact Consuming.further _ ready known
      | _ =>
        rw [kind] at starts
        cases starts

theorem position_binderAtomBody (ready : course.Ready limit state)
    (seen : binderAhead course.scene state = true) :
    course.Takes binderAtomBody state := by
  cases starts : isBinderAtomStart _ with
  | true => exact position_binderAtomBody_of_start ready starts
  | false =>
    rw [binderAhead, starts] at seen
    have isNegative : (seesNegativeNumber.run course.scene.setting course.run state).1 = true := by
      rw [run_seesNegativeNumber]
      exact seen
    have isMinus := kindAhead_of_minus seen
    have known : (Outlook.tokens 1).Holds course.scene state :=
      Outlook.holds_one (by rw [isMinus])
    refine position_kind ?_
    rw [isMinus, if_neg (by decide)]
    rw [Course.Takes, run_look, isNegative, if_pos rfl]
    exact Consuming.further _ ready known

theorem position_binderAtomRule (ready : course.Ready limit state)
    (seen : binderAhead course.scene state = true) :
    course.Takes binderAtomRule state := by
  let deeper : State := { state with depth := state.depth + 1 }
  have inside : binderAhead course.scene (entered course.scene deeper) = true :=
    (binderAhead_of_tokenAt (tokenAt_takeTrivia course.scene.setting deeper)).trans seen
  refine position_enter (position_node (position_binderAtomBody ready.deeper.entered inside)) ?_
  rw [binderAhead, Bool.or_eq_true] at seen
  rcases seen with starts | minus
  · exact (isEnding_of_isBinderAtomStart starts).1
  · rw [kindAhead_of_minus minus]
    rfl

instance : Pressing course (limit + 2) outlook (do
    if (← seesBinderAtom) then
      ignore (Script.call .binderAtom)
      pure (ForInStep.yield ())
    else pure (.done ())) :=
  .test fun state ready seen => course.grasps .binderAtom state ready.total
    (ready.enters (Nat.lt_add_left limit (Nat.lt_succ_self 1)))
    ((run_seesBinderAtom state).symm.trans seen)

/-! ### Expressions and right-hand sides -/

instance {condition : Bool} {yes no : NodeKind} [first : Decided (mayClose declares yes)]
    [second : Decided (mayClose declares no)] :
    Decided (mayClose declares (if condition = true then yes else no)) := by
  split
  · exact first
  · exact second

set_option synthInstance.maxSize 1024 in
instance : Completing course limit outlook exprAtom := by
  refine .kind (fun kind _ => ?_) (fun kind mark => ?_) (fun problem => inferInstance)
    inferInstance
  · split
    · infer_instance
    · split <;> infer_instance
  · split
    · next literal =>
        cases kind with
        | layoutStart | layoutSep | layoutEnd => cases literal
        | _ => cases mark
    · split <;> first | infer_instance | cases mark

theorem position_exprAtom (ready : course.Ready limit state)
    (starts : isExprAtomStart (kindAhead course.scene state 0) = true) :
    course.Takes exprAtom state := by
  have known : Outlook.onward.Holds course.scene state := by
    intro isEnd
    rw [isEnd] at starts
    cases starts
  refine position_kind ?_
  split
  · exact Consuming.further _ ready known
  · next other =>
      unfold isExprAtomStart at starts
      rw [Bool.eq_false_of_not_eq_true other] at starts
      cases kind : kindAhead course.scene state 0 with
      | opening bracket => cases bracket <;> exact Consuming.further _ ready known
      | keyword word =>
        rw [kind] at starts
        cases word <;> first | exact Consuming.further _ ready known | cases starts
      | lowerName | qualifiedLower | upperName | qualifiedUpper | hole | underscore | qualifiedDo
      | qualifiedAdo | backslash | error => exact Consuming.further _ ready known
      | _ =>
        rw [kind] at starts
        cases starts

theorem position_argument (ready : course.Ready limit state)
    (seen : (seesArgument.run course.scene.setting course.run state).1 = true) :
    course.Takes argument state := by
  have ahead : (isExprAtomStart (kindAhead course.scene state 0) ||
      decide (kindAhead course.scene state 0 = .atSign)) = true := seen
  rw [Course.Takes, run_look]
  split
  · next isSign =>
      have known : (Outlook.tokens 1).Holds course.scene state :=
        Telling.tells course.scene course.run state (Outlook.holds_none state) isSign
      exact Consuming.further _ ready known
  · next other =>
      have notSign : decide (kindAhead course.scene state 0 = .atSign) = false :=
        Bool.eq_false_of_not_eq_true other
      rw [notSign, Bool.or_false] at ahead
      rw [run_ignore]
      exact Nat.lt_of_lt_of_le (position_exprAtom ready ahead) (course.consumes_run _ _).least

instance : Pressing course limit outlook (do
    if (← seesArgument) then
      argument
      pure (ForInStep.yield ())
    else pure (.done ())) :=
  .test fun _ ready seen => position_argument ready seen

/-! ### Declarations -/

/-- The kinds of tokens that start a type variable of a declaration start one of a quantifier. -/
instance : Pressing course limit outlook (do
    if (← seesAny [.lowerName, .openParen]) then
      typeVarBinding
      pure (ForInStep.yield ())
    else pure (.done ())) := by
  refine .test fun _ ready seen => position_typeVarBinding ready ?_
  exact List.mem_append_left [.atSign] (List.contains_iff_mem.mp seen)

set_option synthInstance.maxSize 8192 in
instance : Completing course limit (.tokens (count + 1)) classDecl := by
  unfold classDecl
  infer_instance

/-! ### Declared fixities -/

instance [Decided course.declares] (space : Namespace) (associativity : Associativity)
    (precedence : Option Nat) :
    Completing course limit outlook (declaredOperator space associativity precedence) := by
  unfold declaredOperator
  cases precedence <;> (dsimp only; infer_instance)

/-! ### Imports and modules -/

set_option synthInstance.maxSize 512 in
instance : Completing course limit outlook importItem := by
  refine .kind (fun kind _ => ?_) (fun kind mark => ?_) (fun problem => inferInstance)
    inferInstance
  · split <;> infer_instance
  · split <;> infer_instance

set_option synthInstance.maxSize 8192 in
instance [Decided course.declares] : Completing course limit outlook decl := by
  refine .kind (fun kind _ => ?_) (fun kind mark => ?_) (fun problem => inferInstance)
    inferInstance
  · split <;> infer_instance
  · split <;> first | infer_instance | cases mark

/-! ### Rules -/

set_option synthInstance.maxSize 4096 in
instance (rule : Rule) : Completing course rule.rank rule.outlook (scriptOf rule) := by
  cases rule with
  | chain level least parent =>
    cases level <;> (unfold scriptOf operandOf Rule.rank Rule.outlook; infer_instance)
  | _ => unfold scriptOf Rule.rank Rule.outlook; infer_instance

theorem position_scriptOf {rule : Rule} (ready : course.Ready rule.rank state)
    (grasps : rule.Grasps course.scene state) :
    course.Takes (scriptOf rule) state := by
  cases rule with
  | update =>
    have taken : Consuming course 0 (.tokens 1) updateRule := inferInstance
    exact taken.meets state ready grasps
  | binderAtom => exact position_binderAtomRule ready grasps
  | _ => exact grasps.elim

/--
A rule runs to its end within a depth of calls that the tokens ahead and the
rank of the rule allow.
-/
theorem runs_runRule (scene : Scene) {bound : Nat} {entries : List Entry} {rule : Rule}
    (deep : 5 * state.ahead.length + rule.rank < bound)
    (turns : state.position + state.ahead.length < scene.setting.rounds)
    (enters : Enters entries rule state.position) (holds : rule.outlook.Holds scene state) :
    Runs scene.setting declares entries (.call rule) state
        (runRule scene.setting scriptOf bound rule state).1
        (runRule scene.setting scriptOf bound rule state).2 ∧
      (rule.Grasps scene state →
        state.position < (runRule scene.setting scriptOf bound rule state).2.position) := by
  induction bound generalizing declares entries rule state with
  | zero => exact absurd deep (Nat.not_lt_zero _)
  | succ bound ih =>
    -- What the rule enters is at a later token, or it ranks below the rule.
    have room {inner : Rule} {later : State}
        (total : later.position + later.ahead.length = state.position + state.ahead.length)
        (fresh : Enters (⟨rule, state.position⟩ :: entries) inner later.position) :
        5 * later.ahead.length + inner.rank < bound := by
      have least := inner.rank_le
      rcases fresh _ List.mem_cons_self with earlier | ⟨here, below⟩
      · have further : state.position < later.position := earlier
        omega
      · have same : state.position = later.position := here
        have ranks : inner.rank < rule.rank := below
        omega
    let course : Course :=
      { scene
        declares := false
        entries := ⟨rule, state.position⟩ :: entries
        total := state.position + state.ahead.length
        enough := turns
        run := runRule scene.setting scriptOf bound
        consumes := (Consumes.steps scene.setting).runRule bound
        completes := fun _ _ total fresh known =>
          (ih (room total fresh) (total ▸ turns) fresh known).1
        grasps := fun _ _ total fresh grasps =>
          (@ih false _ _ _ (room total fresh) (total ▸ turns) fresh grasps.outlook).2 grasps }
    have ready : course.Ready rule.rank state := by
      refine ⟨rfl, fun entry member => ?_⟩
      rcases List.mem_cons.mp member with rfl | outer
      · exact .inr ⟨rfl, Nat.le_refl _⟩
      · exact (enters entry outer).imp_right (And.imp_right Nat.le_of_lt)
    have completing : Completing course rule.rank rule.outlook (scriptOf rule) := inferInstance
    exact ⟨.call enters (completing.completes state ready holds), position_scriptOf ready⟩

/-! ### Whole modules -/

theorem ahead_bump_of_eof {shown taken : List Token} {last : Token}
    (others : ∀ token ∈ shown, token.kind ≠ .eof)
    (split : shown ++ [last] = taken ++ state.ahead.map Lexeme.token)
    (atEnd : kindAhead scene state 0 = .eof) : (state.bump scene.setting).ahead = [] := by
  cases found : state.ahead with
  | nil => rw [bump_of_ahead_nil scene.setting found, found]
  | cons lexeme rest =>
    rw [bump_of_cons scene.setting found]
    rw [kindAhead, State.tokenAt, found] at atEnd
    rw [found, List.map_cons] at split
    by_contra more
    have early := congrArg List.dropLast split
    rw [List.dropLast_concat, List.dropLast_append_of_ne_nil (List.cons_ne_nil _ _),
      List.dropLast_cons_of_ne_nil (by simpa using more)] at early
    refine others lexeme.token ?_ atEnd
    rw [early]
    exact List.mem_append_right _ List.mem_cons_self

theorem kindAhead_leftover (ready : course.Ready limit state) :
    kindAhead course.scene ((whileSeen seesMore (misfit [])).run course.scene.setting course.run
      state).2 0 = .eof := by
  have total := ready.total
  have enough := course.enough
  refine iterate_ends (fun _ inner => course.Ready limit inner)
    (fun _ inner => kindAhead course.scene inner 0 = .eof) (fun _ inner ready => ?_)
    course.scene.setting.rounds () state ready (by omega)
  have seen : (seesMore.run course.scene.setting course.run inner).1 =
      decide (kindAhead course.scene inner 0 ≠ .eof) := rfl
  have looks : (seesMore.run course.scene.setting course.run inner).2 = inner := rfl
  rw [run_bind, seen]
  by_cases isEnd : kindAhead course.scene inner 0 = .eof
  · rw [decide_eq_false (not_not_intro isEnd)]
    exact .inl ⟨(), inner, rfl, isEnd⟩
  · rw [decide_eq_true isEnd]
    have consumes := course.consumes_run (misfit []) inner
    have taken : Consuming course limit .onward (misfit []) := inferInstance
    have further : inner.position < _ := taken.meets inner ready isEnd
    have same := consumes.total
    exact .inr ⟨(), ((misfit []).run course.scene.setting course.run inner).2, rfl,
      ready.consume consumes, by omega⟩

theorem ahead_wholeModule {shown : List Token} {last : Token} (ready : course.Ready limit state)
    (others : ∀ token ∈ shown, token.kind ≠ .eof)
    (ahead : shown ++ [last] = state.ahead.map Lexeme.token)
    (finished : (wholeModule.run course.scene.setting course.run state).1 = false) :
    (wholeModule.run course.scene.setting course.run state).2.ahead = [] := by
  have items := course.consumes_run moduleItems state
  rw [run_bind] at finished ⊢
  generalize moduleItems.run course.scene.setting course.run state = outcome at items finished ⊢
  cases given : outcome.1 with
  | true =>
    rw [given] at finished
    cases finished
  | false =>
    have atEnd := kindAhead_leftover (ready.consume items)
    obtain ⟨taken, split, -⟩ := items.trans
      (course.consumes_run (whileSeen seesMore (misfit [])) outcome.2)
    exact ahead_bump_of_eof others (ahead.trans split) atEnd

/-- The state in which the tokens are ahead and nothing has been read. -/
def State.before (tokens : List Token) (table : OperatorTable) : State :=
  { ahead := Lexeme.group tokens, operators := table }

/-- The rules may call each other deep enough for as many tokens as there are rounds for. -/
theorem rank_lt_callBound (rule : Rule) {tokens rounds : Nat} (enough : tokens < rounds) :
    5 * tokens + rule.rank < callBound rounds := by
  have ranks := rule.rank_le
  unfold callBound
  omega

/--
The rules of a run on as many tokens as there are rounds for, while no rule is
being run.  The flag says whether fixities may be declared.
-/
def outermost (scene : Scene) (declares : Bool) (total : Nat)
    (enough : total < scene.setting.rounds) : Course where
  scene := scene
  declares := declares
  entries := []
  total := total
  enough := enough
  run := runRule scene.setting scriptOf (callBound scene.setting.rounds)
  consumes := (Consumes.steps scene.setting).runRule _
  completes rule state same enters holds := by
    have deep := rank_lt_callBound rule (Nat.lt_of_le_of_lt (Nat.le_add_left _ _) (same ▸ enough))
    exact (runs_runRule scene deep (same ▸ enough) enters holds).1
  grasps rule state same enters grasps := by
    have deep := rank_lt_callBound rule (Nat.lt_of_le_of_lt (Nat.le_add_left _ _) (same ▸ enough))
    exact (@runs_runRule declares _ scene _ _ _ deep (same ▸ enough) enters grasps.outlook).2 grasps

theorem wholeModule_heeds (scene : Scene) {bound : Nat} (turns : 0 < scene.setting.rounds)
    (gaveUp : (wholeModule.run scene.setting (runRule scene.setting scriptOf bound) state).1 =
      true) : ∃ asked, scene.setting.isCancelled asked = true := by
  let conduct : Conduct :=
    { scene
      asks := false
      turns
      run := runRule scene.setting scriptOf bound
      proceeds := (conducts_runRule scene false turns bound).1
      closes := (conducts_runRule scene false turns bound).2 }
  have heedful : Heedful conduct wholeModule := heedful_wholeModule rfl
  have heeds := heedful state
  have later := heeds.asked gaveUp
  exact ⟨_, (heeds.answers _ (Nat.le_sub_one_of_lt later) (Nat.sub_one_lt_of_lt later)).mpr
    ⟨gaveUp, Nat.sub_add_cancel (Nat.one_le_of_lt later)⟩⟩

set_option synthInstance.maxSize 4096 in
/--
Whatever tokens the layout is resolved for, reading a module ends, and not
because a bound is reached: it is a run without bounds, in which every round of
a loop but the last takes a token, and a rule that is entered while others are
being run is entered at a later token than those that do not rank above it, so
never twice at the same token.  It takes the tokens that the grammar sees in
order, and each once.  A run is given up only where an answer says so; any other
run takes all of them, the end of the text included.
-/
theorem readModule_completes (tabWidth : Nat) (raw : List Token) (options : ParseOptions)
    (isCancelled : Nat → Bool) (sourceLength : Nat) (table : OperatorTable) :
    ∃ cancelled final,
      Runs (Parse.setting options isCancelled sourceLength
            (Lexeme.group (Layout.resolve tabWidth raw)))
          true [] wholeModule ((State.before (Layout.resolve tabWidth raw) table).mark .start)
          cancelled final ∧
        readModule (Parse.setting options isCancelled sourceLength
            (Lexeme.group (Layout.resolve tabWidth raw)))
          (.before (Layout.resolve tabWidth raw) table) =
            (cancelled, final.mark (.finish .wholeModule none)) ∧
        Consumes (.before (Layout.resolve tabWidth raw) table) final ∧
        (cancelled = true → ∃ asked, isCancelled asked = true) ∧
        (cancelled = false → final.ahead = [] ∧ final.position =
          ((Layout.resolve tabWidth raw).filter fun token => token.kind.isVisible).length) := by
  generalize resolved : Layout.resolve tabWidth raw = tokens
  obtain ⟨front, last, output, isEnd, others⟩ :=
    Layout.resolveFrom_eof_last (max tabWidth 1) {} raw
  rw [← Layout.resolve, resolved] at output
  let scene : Scene :=
    ⟨Parse.setting options isCancelled sourceLength (Lexeme.group tokens), tokens, table⟩
  let start := State.before tokens table
  let course := outermost scene true (Lexeme.group tokens).length
    (Nat.lt_add_of_pos_right (by decide))
  have ready : course.Ready 5 (start.mark .start) :=
    ⟨Nat.zero_add _, List.forall_mem_nil _⟩
  have declares : Decided course.declares := ⟨rfl⟩
  have runs : Completing course 5 (.tokens 0) wholeModule := inferInstance
  have consumes : Consumes start
      (wholeModule.run course.scene.setting course.run (start.mark .start)).2 :=
    (Consumes.mark .start start).trans (course.consumes_run wholeModule _)
  have shown : start.ahead.map Lexeme.token = tokens.filter fun token => token.kind.isVisible :=
    Lexeme.map_token_groupFrom [] tokens
  have seen : (front.filter fun token => token.kind.isVisible) ++ [last] =
      start.ahead.map Lexeme.token := by
    rw [shown, output, List.filter_append, List.filter_cons_of_pos (by rw [isEnd]; rfl),
      List.filter_nil]
  refine ⟨_, _, runs.completes _ ready (Outlook.holds_none _), rfl, consumes,
    wholeModule_heeds scene (Nat.succ_pos _), fun finished => ?_⟩
  have nothing := ahead_wholeModule ready
    (fun token member => others token (List.mem_of_mem_filter member)) seen finished
  have total : _ = 0 + start.ahead.length := consumes.total
  refine ⟨nothing, ?_⟩
  rw [nothing, List.length_nil, Nat.zero_add] at total
  rw [← shown, List.length_map, ← total]
  rfl

end Offside.Grammar
