import Offside.Proofs.StepRelations

/-!
# The levels of nesting are counted right

Levels are entered and left by steps of their own, which stand where the
productions put them.  How many more have been left than entered can be read
off the text of a production, way by way, and at the end of each way they are
as many.  So a run of a production ends with the counter where it was, and
between two declarations of a module nothing is entered.
-/

namespace Offside.Grammar

/-! ### Levels along a script -/

/--
Along every way through the script from a level, if rules keep the level, the
answer and the level at its end are as stated.  Declarations of the top level,
in front of which brackets are forgotten, start only at levels in `top`.
-/
def Script.Ends (top : Nat → Prop) {α : Type} : Script α → Nat → (α → Nat → Prop) → Prop
  | .result value, level, ends => ends value level
  | .andThen first next, level, ends =>
    first.Ends top level fun value after => (next value).Ends top after ends
  | .fault _ _ body, level, ends => body.Ends top level ends
  | .node body, level, ends => body.Ends top level fun kind => ends kind.isSome
  | .wrap _ body, level, ends => body.Ends top level ends
  | .deepen, level, ends => ends true (level + 1) ∧ ends false level
  | .leave, level, ends => ends () (level - 1)
  | .loop _ round, level, ends =>
    (∀ value, (round value).Ends top level fun _ after => after = level) ∧
      ∀ value, ends value level
  | .forgetBrackets, level, ends => top level ∧ ends () level
  | _, level, ends => ∀ value, ends value level

theorem Script.Ends.mono {top wider : Nat → Prop} {α : Type} {script : Script α} {level : Nat}
    {ends further : α → Nat → Prop} (holds : script.Ends top level ends)
    (weaker : ∀ value after, ends value after → further value after)
    (allows : ∀ level, top level → wider level) : script.Ends wider level further := by
  induction script generalizing level with
  | result value => exact weaker value level holds
  | andThen first next ihFirst ihNext =>
    exact ihFirst holds fun value after later => ihNext value later weaker
  | fault _ _ _ ih | wrap _ _ ih => exact ih holds weaker
  | node body ih => exact ih holds fun kind => weaker kind.isSome
  | deepen => exact holds.imp (weaker true _) (weaker false _)
  | leave => exact weaker () _ holds
  | loop start round ih =>
    exact ⟨fun value => ih value (holds.1 value) fun _ _ same => same,
      fun value => weaker value level (holds.2 value)⟩
  | forgetBrackets => exact ⟨allows level holds.1, weaker () level holds.2⟩
  | _ => exact fun value => weaker value level (holds value)

/--
From every level the script leaves so many levels more than it enters.  The flag
says whether declarations of the top level may start, and only at that level.
-/
class Rises (top : Bool) (levels : Nat) {α : Type} (script : Script α) : Prop where
  ends : ∀ level, script.Ends (fun other => top = true ∧ other = level) level
    fun _ after => after = level - levels

/-- The script is a single step that neither enters nor leaves a level and forgets nothing. -/
@[reducible]
def Script.isFlat {α : Type} : Script α → Bool
  | .andThen _ _ | .fault _ _ _ | .node _ | .wrap _ _ | .deepen | .leave | .loop _ _
  | .forgetBrackets => false
  | _ => true

section Levels

variable {top : Bool} {levels : Nat} {α β σ : Type}

instance {script : Script α} [flat : Decided script.isFlat] : Rises top 0 script where
  ends level := by
    have isFlat := flat.holds
    cases script with
    | andThen | fault | node | wrap | deepen | leave | loop | forgetBrackets => cases isFlat
    | result => rfl
    | _ => exact fun _ => rfl

variable {script yes no : Script α} {next : α → Script β} {body item : Script Unit}
  {round : σ → Script (ForInStep σ)}

theorem Script.Looks.ends {top : Nat → Prop} {script : Script α} (looks : script.Looks)
    (level : Nat) : script.Ends top level fun _ after => after = level := by
  induction looks with
  | @look _ script isLook =>
    cases script with
    | result => rfl
    | peek | search | position | insideBrackets | sighting | lookup | reportsUnknown =>
      exact fun _ => rfl
    | _ => cases isLook
  | andThen _ _ first later =>
    exact first.mono (fun value _ same => same ▸ later value) fun _ => id

instance (priority := low) [looking : Looking script] : Rises top 0 script :=
  ⟨fun level => looking.only.ends level⟩

instance : Rises top 1 Script.leave :=
  ⟨fun _ => rfl⟩

instance : Rises true 0 Script.forgetBrackets :=
  ⟨fun _ => ⟨⟨rfl, rfl⟩, rfl⟩⟩

theorem Rises.bind (first : Rises top 0 script) (later : ∀ value, Rises top levels (next value)) :
    Rises top levels (script >>= next) :=
  ⟨fun level => (first.ends level).mono (fun value _ same => same ▸ (later value).ends level)
    fun _ => id⟩

theorem Rises.choice {condition : Prop} [Decidable condition] (first : Rises top levels yes)
    (second : Rises top levels no) : Rises top levels (if condition then yes else no) := by
  split
  · exact first
  · exact second

instance [first : Rises top 0 script] [later : ∀ value, Rises top levels (next value)] :
    Rises top levels (script >>= next) :=
  first.bind later

instance (priority := high) [first : Rises top 0 script] {rest : Script β}
    [later : Rises top levels rest] : Rises top levels (script >>= fun _ => rest) :=
  first.bind fun _ => later

instance (priority := high) {condition : α → Prop} [∀ value, Decidable (condition value)]
    {yes no : Script β} [first : Rises top 0 script] [second : Rises top levels yes]
    [third : Rises top levels no] :
    Rises top levels (script >>= fun value => if condition value then yes else no) :=
  first.bind fun _ => second.choice third

instance {condition : Prop} [Decidable condition] [first : Rises top levels yes]
    [second : Rises top levels no] : Rises top levels (if condition then yes else no) :=
  first.choice second

instance (priority := low) [first : Rises false 1 script]
    [later : ∀ value, Rises false 0 (next value)] : Rises false 1 (script >>= next) where
  ends level := by
    refine (first.ends level).mono (fun value after same => ?_) fun _ => id
    subst same
    exact ((later value).ends (level - 1)).mono (fun _ _ => id) fun _ => by rintro ⟨⟨⟩, _⟩

instance (cause : Cause) (expected : List TokenKind) [inside : Rises top levels body] :
    Rises top levels (Script.fault cause expected body) :=
  ⟨inside.ends⟩

instance {body : Script (Option NodeKind)} [inside : Rises top levels body] :
    Rises top levels (Script.node body) :=
  ⟨inside.ends⟩

instance (kind : NodeKind) [inside : Rises top levels body] :
    Rises top levels (Script.wrap kind body) :=
  ⟨inside.ends⟩

instance (start : σ) [once : ∀ value, Rises top 0 (round value)] :
    Rises top 0 (Script.loop start round) :=
  ⟨fun level => ⟨fun value => (once value).ends level, fun _ => rfl⟩⟩

instance (priority := high) [first : Rises false 1 yes] [second : Rises top 0 no] :
    Rises top 0 (enter >>= fun entered => if entered = true then yes else no) where
  ends level := by
    have skips : Rises top 0 (recover [] []) := inferInstance
    refine ⟨?_, (skips.ends level).mono (fun _ after same => ?_) fun _ => id⟩
    · exact (first.ends (level + 1)).mono (fun _ _ => id) fun _ => by rintro ⟨⟨⟩, _⟩
    · rw [same]
      exact second.ends level

/-! ### Productions -/

instance (level : Level) (operator : ChainOperator) (conflict : Option FixityFault) :
    Rises top 0 (operatorNode level operator conflict) := by
  cases conflict <;> (dsimp only [operatorNode]; infer_instance)

instance {operand : Script Bool} [Rises top 0 operand] (level : Level) (least : Nat)
    (parent : Option ChainOperator) : Rises top 0 (chain operand level least parent) := by
  have round (state : Bool × Option ChainOperator) :
      Rises top 0 (chainRound level least parent state) := by
    refine .bind inferInstance fun operator => ?_
    cases operator <;> infer_instance
  have rounds (first : Bool) :
      Rises top 0 (Script.loop (first, none) (chainRound level least parent)) := inferInstance
  exact .bind inferInstance fun first => (rounds first).bind fun last => inferInstance

set_option synthInstance.maxSize 1000 in
instance : Rises top 0 typeAtom := by
  refine .bind inferInstance fun kind => ?_
  split <;> infer_instance

set_option synthInstance.maxSize 400 in
instance : Rises top 0 typeVarBinding := by
  have body : Rises top 0 (do
      match (← kind) with
      | .openParen =>
        Script.bump
        ignore (eat .atSign)
        ignore (expect .lowerName)
        if (← expect .doubleColon) then ignore (Script.call .type)
        expectClosing .paren
      | .atSign =>
        Script.bump
        ignore (expect .lowerName)
      | _ => ignore (expect .lowerName)) := by
    refine .bind inferInstance fun kind => ?_
    split <;> infer_instance
  unfold typeVarBinding
  infer_instance

set_option synthInstance.maxSize 1000 in
instance : Rises top 0 binderAtomBody := by
  refine .bind inferInstance fun kind => ?_
  split
  · infer_instance
  · split <;> infer_instance

set_option synthInstance.maxSize 600 in
instance [Rises top 0 item] (required : Option (List TokenKind)) :
    Rises top 0 (block item required) := by
  unfold block
  cases required <;> (dsimp only; infer_instance)

set_option synthInstance.maxSize 1000 in
instance : Rises top 0 exprAtom := by
  refine .bind inferInstance fun kind => ?_
  split
  · infer_instance
  · split <;> infer_instance

set_option synthInstance.maxSize 4000 in
instance : Rises top 0 classDecl := by
  unfold classDecl
  infer_instance

instance (space : Namespace) (associativity : Associativity) (precedence : Option Nat) :
    Rises top 0 (declaredOperator space associativity precedence) := by
  unfold declaredOperator
  cases precedence <;> infer_instance

set_option synthInstance.maxSize 600 in
instance : Rises top 0 importItem := by
  refine .bind inferInstance fun kind => ?_
  split <;> infer_instance

set_option synthInstance.maxSize 10000 in
instance : Rises top 0 decl := by
  refine .bind inferInstance fun kind => ?_
  split <;> infer_instance

set_option synthInstance.maxSize 2000 in
instance (rule : Rule) : Rises top 0 (scriptOf rule) := by
  cases rule with
  | chain level least parent => cases level <;> (unfold scriptOf operandOf; infer_instance)
  | _ => unfold scriptOf; infer_instance

set_option synthInstance.maxSize 2000 in
instance : Rises true 0 wholeModule := by
  infer_instance

end Levels

/-! ### The counter in a run -/

variable {setting : Setting} {rules : Rule → State → Bool × State} {α : Type}

theorem depth_takeTrivia (state : State) :
    (state.takeTrivia setting).depth = state.depth := by
  obtain ⟨ahead, trail, reached, taken⟩ := takeTrivia_eq setting state
  rw [taken]

theorem depth_bump (state : State) : (state.bump setting).depth = state.depth := by
  obtain ⟨ahead, position, trail, reached, openBrackets, taken⟩ := bump_eq setting state
  rw [taken]

theorem depth_report (cause : Cause) (expected : List TokenKind) (state : State) :
    (state.report setting cause expected).depth = state.depth := by
  obtain ⟨trail, lastReport, reported⟩ := report_eq setting state cause expected
  rw [reported]

theorem depth_declare (space : Namespace) (operator : String) (fixity : Fixity) (state : State) :
    (state.declare setting space operator fixity).2.depth = state.depth := by
  obtain ⟨operators, declared, done⟩ := declare_eq setting state space operator fixity
  rw [done]

theorem Script.Ends.run (keeps : ∀ rule state, (rules rule state).2.depth = state.depth)
    {top : Nat → Prop} {script : Script α} {state : State} {ends : α → Nat → Prop}
    (holds : script.Ends top state.depth ends) :
    ends (script.run setting rules state).1 (script.run setting rules state).2.depth := by
  have opened (state : State) : ((state.takeTrivia setting).mark .start).depth = state.depth :=
    depth_takeTrivia state
  induction script generalizing state with
  | result => exact holds
  | andThen first next ihFirst ihNext => exact ihNext _ (ihFirst holds)
  | bump =>
    rw [Script.run, depth_bump]
    exact holds ()
  | report cause expected =>
    rw [Script.run, depth_report]
    exact holds ()
  | fault cause expected body ih =>
    rw [Script.Ends, ← opened] at holds
    exact ih holds
  | node body ih =>
    rw [Script.Ends, ← opened] at holds
    have inside := ih holds
    rw [Script.run]
    split
    · next ran =>
        rw [ran] at inside
        exact inside
    · next ran =>
        rw [ran] at inside
        exact inside
  | wrap kind body ih =>
    have inside : body.Ends top (state.mark (.precede 0)).depth ends := holds
    exact ih inside
  | deepen =>
    rw [Script.run]
    split
    · exact holds.1
    · exact holds.2
  | leave => exact holds
  | loop start round ih =>
    have kept : ((Script.loop start round).run setting rules state).2.depth = state.depth := by
      refine iterate_keeps (fun inner : State => inner.depth = state.depth)
        (fun value inner same => ?_) setting.rounds start state rfl
      have once := holds.1 value
      rw [← same] at once
      exact (ih value once).trans same
    rw [kept]
    exact holds.2 _
  | call rule =>
    rw [Script.run, keeps]
    exact holds _
  | declare space operator fixity =>
    rw [Script.run, depth_declare]
    exact holds _
  | forgetBrackets => exact holds.2
  | _ => exact holds _

theorem depth_runRule (bound : Nat) (rule : Rule) (state : State) :
    (runRule setting scriptOf bound rule state).2.depth = state.depth := by
  induction bound generalizing rule state with
  | zero => exact depth_report .syntactic [] state
  | succ bound ih =>
    have rises : Rises false 0 (scriptOf rule) := inferInstance
    exact (rises.ends state.depth).run ih

theorem Rises.depth {top : Bool} {script : Script α} (rises : Rises top 0 script) (state : State) :
    (script.execute setting state).2.depth = state.depth :=
  (rises.ends state.depth).run (depth_runRule _)

theorem relatesSteps_within (setting : Setting) :
    RelatesSteps setting fun before after => before.depth ≤ maxDepth → after.depth ≤ maxDepth where
  refl _ := id
  trans first second := second ∘ first
  takeTrivia state := (depth_takeTrivia state).trans_le
  bump state := (depth_bump state).trans_le
  mark _ _ := id
  report cause expected state := (depth_report cause expected state).trans_le
  declare space operator fixity state := (depth_declare space operator fixity state).trans_le
  deepen _ room _ := room
  leave _ within := (Nat.sub_le _ 1).trans within
  forget _ _ := id
  poll _ _ := id

/-! ### What is started in a run -/

/--
The value and state with which one of the rounds of a loop starts, if there are
no more than `bound` of them.
-/
inductive Rounds {σ : Type} (round : σ → State → ForInStep σ × State) :
    (bound : Nat) → σ → State → σ → State → Prop where
  | first (bound : Nat) (value : σ) (state : State) :
      Rounds round (bound + 1) value state value state
  | later {bound : Nat} {value next last : σ} {state after moment : State}
      (yields : round value state = (.yield next, after))
      (rounds : Rounds round bound next after last moment) :
      Rounds round (bound + 1) value state last moment

variable (setting) in
/--
While a script is run from a state, an inner one is started at some moment.
Rules call each other no deeper than the bound.
-/
inductive Starts : (bound : Nat) → {α β : Type} → Script α → State → Script β → State → Prop where
  | here (bound : Nat) {α : Type} (script : Script α) (state : State) :
      Starts bound script state script state
  | first {bound : Nat} {α β γ : Type} {script : Script α} {next : α → Script β}
      {inner : Script γ} {state moment : State} (inside : Starts bound script state inner moment) :
      Starts bound (.andThen script next) state inner moment
  | next {bound : Nat} {α β γ : Type} {script : Script α} {next : α → Script β}
      {inner : Script γ} {state moment : State}
      (inside : Starts bound (next (script.run setting (runRule setting scriptOf bound) state).1)
        (script.run setting (runRule setting scriptOf bound) state).2 inner moment) :
      Starts bound (.andThen script next) state inner moment
  | fault {bound : Nat} {γ : Type} {cause : Cause} {expected : List TokenKind}
      {body : Script Unit} {inner : Script γ} {state moment : State}
      (inside : Starts bound body ((state.takeTrivia setting).mark .start) inner moment) :
      Starts bound (.fault cause expected body) state inner moment
  | node {bound : Nat} {γ : Type} {body : Script (Option NodeKind)} {inner : Script γ}
      {state moment : State}
      (inside : Starts bound body ((state.takeTrivia setting).mark .start) inner moment) :
      Starts bound (.node body) state inner moment
  | wrap {bound : Nat} {γ : Type} {kind : NodeKind} {body : Script Unit} {inner : Script γ}
      {state moment : State} (inside : Starts bound body (state.mark (.precede 0)) inner moment) :
      Starts bound (.wrap kind body) state inner moment
  | loop {bound : Nat} {σ γ : Type} {start value : σ} {round : σ → Script (ForInStep σ)}
      {inner : Script γ} {state middle moment : State}
      (rounds : Rounds (fun value => (round value).run setting (runRule setting scriptOf bound))
        setting.rounds start state value middle)
      (inside : Starts bound (round value) middle inner moment) :
      Starts bound (.loop start round) state inner moment
  | call {bound : Nat} {γ : Type} {rule : Rule} {inner : Script γ} {state moment : State}
      (inside : Starts bound (scriptOf rule) state inner moment) :
      Starts (bound + 1) (.call rule) state inner moment

theorem Rounds.keeps {σ : Type} {round : σ → State → ForInStep σ × State}
    (invariant : State → Prop)
    (step : ∀ value state, invariant state → invariant (round value state).2) {bound : Nat}
    {value last : σ} {state moment : State} (rounds : Rounds round bound value state last moment)
    (holds : invariant state) : invariant moment := by
  induction rounds with
  | first => exact holds
  | @later _ value _ _ state _ _ yields _ ih =>
    have once := step value state holds
    rw [yields] at once
    exact ih once

namespace Starts

variable {bound : Nat} {β : Type} {script : Script α} {inner : Script β} {state moment : State}

theorem within (starts : Starts setting bound script state inner moment)
    (holds : state.depth ≤ maxDepth) : moment.depth ≤ maxDepth := by
  have steps := relatesSteps_within setting
  have opens {state : State} (holds : state.depth ≤ maxDepth) :
      ((state.takeTrivia setting).mark .start).depth ≤ maxDepth := steps.takeTrivia state holds
  induction starts with
  | here => exact holds
  | first _ ih | wrap _ ih | call _ ih => exact ih holds
  | next _ ih => exact ih (steps.run (steps.runRule _) _ _ holds)
  | fault _ ih | node _ ih => exact ih (opens holds)
  | loop rounds _ ih =>
    exact ih (rounds.keeps (fun state => state.depth ≤ maxDepth)
      (fun value state => steps.run (steps.runRule _) _ state) holds)

theorem ends (starts : Starts setting bound script state inner moment) {top : Nat → Prop}
    {ends : α → Nat → Prop} (holds : script.Ends top state.depth ends) :
    ∃ later, inner.Ends top moment.depth later := by
  have opened (state : State) : ((state.takeTrivia setting).mark .start).depth = state.depth :=
    depth_takeTrivia state
  induction starts with
  | here => exact ⟨ends, holds⟩
  | first _ ih => exact ih holds
  | next _ ih =>
    rw [Script.Ends] at holds
    exact ih (holds.run (depth_runRule _))
  | fault _ ih | node _ ih =>
    rw [Script.Ends, ← opened] at holds
    exact ih holds
  | wrap _ ih => exact ih holds
  | @loop _ _ _ _ value round _ state middle _ rounds _ ih =>
    have same : middle.depth = state.depth := by
      refine rounds.keeps (fun inner : State => inner.depth = state.depth)
        (fun value inner same => ?_) rfl
      have once := holds.1 value
      rw [← same] at once
      exact (once.run (depth_runRule _)).trans same
    have round := holds.1 value
    rw [← same] at round
    exact ih round
  | @call _ _ rule _ state _ _ ih =>
    have rises : Rises false 0 (scriptOf rule) := inferInstance
    exact ih ((rises.ends state.depth).mono (fun _ _ => id) fun _ => by rintro ⟨⟨⟩, _⟩)

end Starts

/-! ### Productions -/

/-- The productions of the grammar. -/
inductive Production : {α : Type} → Script α → Prop where
  | rule (rule : Rule) : Production (scriptOf rule)
  | decl : Production decl
  | rhs (separator : TokenKind) : Production (rhs separator)
  | exprAtom : Production exprAtom
  | typeAtom : Production typeAtom
  | row (closing : TokenKind) : Production (row closing)
  | block {item : Script Unit} (inside : Production item) (required : Option (List TokenKind)) :
      Production (block item required)
  | recover (expected stops : List TokenKind) : Production (recover expected stops)
  | expectClosing (bracket : Bracket) : Production (expectClosing bracket)
  | wholeModule : Production wholeModule

set_option synthInstance.maxSize 2000 in
theorem Production.rises {script : Script α} (production : Production script) :
    Rises true 0 script := by
  induction production with
  | block _ required ih => infer_instance
  | _ => infer_instance

/--
From a state in which the counter is in its bounds, every production leaves it as
it was, and at no moment of the run is it beyond them.  So every declaration of a
module starts with the counter where it was in front of the module, whatever
stands between: in a text that is parsed, with nothing entered.
-/
theorem depth_balanced (setting : Setting) (state : State) (within : state.depth ≤ maxDepth) :
    (∀ {α : Type} (script : Script α), Production script →
      (script.execute setting state).2.depth = state.depth ∧
      ∀ {β : Type} (inner : Script β) (moment : State),
        Starts setting (callBound setting.rounds) script state inner moment →
          moment.depth ≤ maxDepth) ∧
    (∀ moment : State,
      Starts setting (callBound setting.rounds) wholeModule state topLevelItem moment →
        moment.depth = state.depth) ∧
    ∀ (ahead : List Lexeme) (operators : OperatorTable) (moment : State),
      Starts setting (callBound setting.rounds) wholeModule (State.mark { ahead, operators } .start)
        topLevelItem moment → moment.depth = 0 := by
  have settled {state moment : State} (starts : Starts setting (callBound setting.rounds)
      wholeModule state topLevelItem moment) : moment.depth = state.depth := by
    have rises : Rises true 0 wholeModule := inferInstance
    obtain ⟨later, forgets, -⟩ := starts.ends (rises.ends state.depth)
    exact forgets.2
  refine ⟨fun script production => ⟨production.rises.depth state, ?_⟩, ?_, ?_⟩
  · intro β inner moment starts
    exact starts.within within
  · intro moment starts
    exact settled starts
  · intro ahead operators moment starts
    exact settled starts

/-- A declaration behind a separator, in a module without a header. -/
theorem depth_balanced_behind_separator :
    ∃ (setting : Setting) (state moment : State), state.depth ≤ maxDepth ∧
      Starts setting (callBound setting.rounds) wholeModule state topLevelItem moment ∧
      moment.position = 1 ∧ moment.depth = state.depth := by
  let setting : Setting := ⟨1, false, false, fun _ => false, 2⟩
  let state : State :=
    { ahead := [⟨[], .virtual .layoutSep 0⟩, ⟨[], .lowerName, ⟨0, 1⟩, "x"⟩], operators := {} }
  let moment : State := { state.bump setting with polls := 1 }
  have starts :
      Starts setting (callBound setting.rounds) wholeModule state topLevelItem moment := by
    -- There is no header, nobody gives up, and behind the separator something is left.
    apply Starts.first
    apply Starts.next
    apply Starts.loop (.first 1 false state)
    apply Starts.next
    apply Starts.next
    apply Starts.next
    apply Starts.first
    apply Starts.here
  have balanced := depth_balanced setting state (Nat.zero_le _)
  exact ⟨setting, state, moment, Nat.zero_le _, starts, rfl, balanced.2.1 moment starts⟩

end Offside.Grammar
