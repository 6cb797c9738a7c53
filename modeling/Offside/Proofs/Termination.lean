import Offside.Proofs.Spelling
import Offside.Proofs.StepRelations

/-!
# Runs that end

The machine that runs scripts has two bounds: how often a loop goes round, and
how deep rules call each other.  `Runs` says what a run is without any bound,
and it also says why runs end.  Every round of a loop but the last takes a
token.  A rule that is entered while others are being run is entered at a later
token than they were, or it ranks below those that were entered at the same
token; so a rule is never entered again before a token has been taken.

Whether the machine runs a script like that follows from how the script is put
together.  So it is a class, and instances follow the way the script is put
together.
-/

namespace Offside.Grammar

/-! ### Tokens that are taken -/

variable {α β σ : Type} {scene : Scene} {state : State} {rule : Rule} {script : Script α}
  {next : α → Script β} {condition : Prop} {body item : Script Unit}
  {round : σ → Script (ForInStep σ)} {yes no : Script (ForInStep σ)} {wanted : TokenKind}

theorem Consumes.steps (setting : Setting) : RelatesSteps setting Consumes where
  refl := .refl
  trans := .trans
  takeTrivia := .takeTrivia setting
  bump := .bump setting
  mark := .mark
  report cause expected state := by
    obtain ⟨trail, lastReport, reported⟩ := report_eq setting state cause expected
    rw [reported]
    exact .of_ahead rfl rfl
  declare space operator fixity state := by
    obtain ⟨operators, declared, done⟩ := declare_eq setting state space operator fixity
    rw [done]
    exact .of_ahead rfl rfl
  deepen _ _ := .of_ahead rfl rfl
  leave _ := .of_ahead rfl rfl
  forget _ _ := .of_ahead rfl rfl
  poll _ _ := .of_ahead rfl rfl

theorem position_bump (onward : kindAhead scene state 0 ≠ .eof) :
    state.position < (state.bump scene.setting).position := by
  obtain ⟨lexeme, rest, found, -⟩ := ahead_of_kindAhead onward
  obtain ⟨ahead, trail, reached, taken⟩ := takeTrivia_eq scene.setting state
  rw [bump_of_cons scene.setting found, taken]
  exact Nat.lt_succ_self _

/-! ### Runs -/

/-- How many rules inside each other a rule enters at most before a token is taken. -/
def Rule.rank : Rule → Nat
  | .update => 0
  | .operand | .binderAtom => 1
  | .chain _ _ _ => 2
  | .expr | .binder | .type => 3
  | .localDecl => 4

theorem Rule.rank_le (rule : Rule) : rule.rank ≤ 4 := by
  cases rule with
  | chain => exact Nat.le_add_left 2 2
  | _ => decide

/-- A rule that is being run, and how many tokens had been taken when it was entered. -/
structure Entry where
  rule : Rule
  position : Nat

/--
The rule may be entered while the others are being run: a token has been taken
since each of them was entered, or the rule ranks below it.
-/
def Enters (entries : List Entry) (rule : Rule) (position : Nat) : Prop :=
  ∀ entry ∈ entries, entry.position < position ∨
    entry.position = position ∧ rule.rank < entry.rule.rank

@[reducible]
def Script.isStep {α : Type} : Script α → Bool
  | .andThen _ _ | .fault _ _ _ | .node _ | .wrap _ _ | .loop _ _ | .call _
  | .declare _ _ _ => false
  | _ => true

/-- Nodes of the kind may be closed; those of declared fixities only where one may be declared. -/
@[reducible]
def mayClose (declares : Bool) : NodeKind → Bool
  | .fixityDecl => declares
  | _ => true

variable (setting : Setting) in
/--
The script is run from a state, gives an answer and leaves a state.  The flag
says whether fixities may be declared, and the entries are the rules that are
being run.  No loop and no rule has a bound.
-/
inductive Runs :
    (declares : Bool) → List Entry → {α : Type} → Script α → State → α → State → Prop where
  | step {declares : Bool} {entries : List Entry} {α : Type} {script : Script α}
      (isStep : script.isStep = true) (rules : Rule → State → Bool × State) (state : State) :
      Runs declares entries script state (script.run setting rules state).1
        (script.run setting rules state).2
  | declare {declares : Bool} {entries : List Entry} (allowed : declares = true)
      (space : Namespace) (operator : String) (fixity : Fixity) (state : State) :
      Runs declares entries (.declare space operator fixity) state
        (state.declare setting space operator fixity).1
        (state.declare setting space operator fixity).2
  | andThen {declares : Bool} {entries : List Entry} {α β : Type} {script : Script α}
      {next : α → Script β} {state middle after : State} {value : α} {answer : β}
      (first : Runs declares entries script state value middle)
      (later : Runs declares entries (next value) middle answer after) :
      Runs declares entries (.andThen script next) state answer after
  | fault {declares : Bool} {entries : List Entry} {cause : Cause} {expected : List TokenKind}
      {body : Script Unit} {state after : State}
      (inside : Runs declares entries body ((state.takeTrivia setting).mark .start) ()
        after) :
      Runs declares entries (.fault cause expected body) state ()
        (after.mark (.finish .error
          (some (after.resume setting (state.diagnose setting cause expected)))))
  | node {declares : Bool} {entries : List Entry} {body : Script (Option NodeKind)}
      {kind : NodeKind} {state after : State} (allowed : mayClose declares kind = true)
      (inside : Runs declares entries body ((state.takeTrivia setting).mark .start)
        (some kind) after) :
      Runs declares entries (.node body) state true (after.mark (.finish kind none))
  | abandon {declares : Bool} {entries : List Entry} {body : Script (Option NodeKind)}
      {state after : State}
      (inside : Runs declares entries body ((state.takeTrivia setting).mark .start) none
        after) :
      Runs declares entries (.node body) state false (after.mark .abandon)
  | wrap {declares : Bool} {entries : List Entry} {kind : NodeKind} {body : Script Unit}
      {state after : State} (allowed : mayClose declares kind = true)
      (inside : Runs declares entries body (state.mark (.precede 0)) () after) :
      Runs declares entries (.wrap kind body) state () (after.mark (.finish kind none))
  | last {declares : Bool} {entries : List Entry} {σ : Type} {round : σ → Script (ForInStep σ)}
      {value answer : σ} {state after : State}
      (once : Runs declares entries (round value) state (.done answer) after) :
      Runs declares entries (.loop value round) state answer after
  | again {declares : Bool} {entries : List Entry} {σ : Type} {round : σ → Script (ForInStep σ)}
      {value next answer : σ} {state middle after : State}
      (once : Runs declares entries (round value) state (.yield next) middle)
      (further : state.position < middle.position)
      (rest : Runs declares entries (.loop next round) middle answer after) :
      Runs declares entries (.loop value round) state answer after
  | call {declares : Bool} {entries : List Entry} {rule : Rule} {state after : State}
      {answer : Bool} (enters : Enters entries rule state.position)
      (inside : Runs false (⟨rule, state.position⟩ :: entries) (scriptOf rule) state
        answer after) :
      Runs declares entries (.call rule) state answer after

/-! ### Courses -/

def binderAhead (scene : Scene) (state : State) : Bool :=
  isBinderAtomStart (kindAhead scene state 0) ||
    (state.peek scene.setting 0).kind = .operator && (state.peek scene.setting 0).text = "-" &&
      (kindAhead scene state 1 = .integer || kindAhead scene state 1 = .number)

theorem run_seesBinderAtom {rules : Rule → State → Bool × State} (state : State) :
    (seesBinderAtom.run scene.setting rules state).1 = binderAhead scene state := by
  rw [run_look, binderAhead,
    show (kind.run scene.setting rules state).1 = kindAhead scene state 0 from rfl]
  split
  · next starts =>
      rw [starts]
      rfl
  · next other =>
      rw [Bool.not_eq_true] at other
      rw [run_seesNegativeNumber, other]
      rfl

theorem binderAhead_of_tokenAt {one two : State}
    (same : ∀ index, two.tokenAt scene.setting index = one.tokenAt scene.setting index) :
    binderAhead scene two = binderAhead scene one := by
  unfold binderAhead kindAhead State.peek
  rw [same 0, same 1]

/-- Where this holds the rule takes a token, however deep it is called. -/
def Rule.Grasps (scene : Scene) : Rule → State → Prop
  | .update, state => (Outlook.tokens 1).Holds scene state
  | .binderAtom, state => binderAhead scene state = true
  | _, _ => False

theorem Rule.Grasps.outlook (grasps : rule.Grasps scene state) :
    rule.outlook.Holds scene state := by
  cases rule with
  | update => exact grasps
  | _ => exact Outlook.holds_none state

/-- How the rules are run while others are being run. -/
structure Course where
  scene : Scene
  declares : Bool
  entries : List Entry
  /-- How many tokens there are, taken or ahead. -/
  total : Nat
  enough : total < scene.setting.rounds
  run : Rule → State → Bool × State
  consumes : ∀ rule state, Consumes state (run rule state).2
  completes : ∀ rule state, state.position + state.ahead.length = total →
    Enters entries rule state.position → rule.outlook.Holds scene state →
      Runs scene.setting declares entries (.call rule) state (run rule state).1 (run rule state).2
  grasps : ∀ rule state, state.position + state.ahead.length = total →
    Enters entries rule state.position → rule.Grasps scene state →
      state.position < (run rule state).2.position

/-- Rules that rank below the limit may be entered. -/
structure Course.Ready (course : Course) (limit : Nat) (state : State) : Prop where
  total : state.position + state.ahead.length = course.total
  below : ∀ entry ∈ course.entries, entry.position < state.position ∨
    entry.position = state.position ∧ limit ≤ entry.rule.rank

variable {course : Course} {limit : Nat} {outlook : Outlook} {count : Nat} {after : State}

theorem Course.consumes_run (course : Course) (script : Script α) (state : State) :
    Consumes state (script.run course.scene.setting course.run state).2 :=
  (Consumes.steps course.scene.setting).run course.consumes script state

@[reducible]
def Course.Takes (course : Course) (script : Script α) (state : State) : Prop :=
  state.position < (script.run course.scene.setting course.run state).2.position

/-- The script takes a token, unless it says that it is done. -/
@[reducible]
def Course.Presses (course : Course) (round : Script (ForInStep σ)) (state : State) : Prop :=
  ∀ next, (round.run course.scene.setting course.run state).1 = .yield next →
    state.position < (round.run course.scene.setting course.run state).2.position

namespace Course.Ready

theorem consume (ready : course.Ready limit state) (consumes : Consumes state after) :
    course.Ready limit after where
  total := consumes.total.trans ready.total
  below entry member := by
    have least := consumes.least
    rcases ready.below entry member with earlier | ⟨here, ranks⟩
    · exact .inl (Nat.lt_of_lt_of_le earlier least)
    · rcases Nat.lt_or_eq_of_le least with moved | unmoved
      · exact .inl (here ▸ moved)
      · exact .inr ⟨here.trans unmoved, ranks⟩

theorem moved (ready : course.Ready limit state) (consumes : Consumes state after)
    (further : state.position < after.position) {higher : Nat} : course.Ready higher after where
  total := consumes.total.trans ready.total
  below entry member := by
    refine .inl ?_
    rcases ready.below entry member with earlier | ⟨here, -⟩
    · exact Nat.lt_trans earlier further
    · exact here ▸ further

theorem enters (ready : course.Ready limit state) (ranks : rule.rank < limit) :
    Enters course.entries rule state.position :=
  fun entry member => (ready.below entry member).imp_right fun ⟨here, least⟩ =>
    ⟨here, Nat.lt_of_lt_of_le ranks least⟩

theorem entered (ready : course.Ready limit state) :
    course.Ready limit (entered course.scene state) :=
  ready.consume ((Consumes.takeTrivia _ state).trans (.mark .start _))

theorem deeper (ready : course.Ready limit state) :
    course.Ready limit { state with depth := state.depth + 1 } :=
  ready.consume (.of_ahead rfl rfl)

end Course.Ready

/-- The machine runs the script as if there were no bound. -/
@[reducible]
def Course.Completes (course : Course) (script : Script α) (state : State) : Prop :=
  Runs course.scene.setting course.declares course.entries script state
    (script.run course.scene.setting course.run state).1
    (script.run course.scene.setting course.run state).2

theorem Script.Looks.runs {declares : Bool} {entries : List Entry} (looks : script.Looks)
    (rules : Rule → State → Bool × State) (state : State) :
    Runs scene.setting declares entries script state
      (script.run scene.setting rules state).1 state := by
  induction looks with
  | @look _ script isLook =>
    cases script <;> first | exact .step rfl rules state | cases isLook
  | @andThen _ _ script next first _ ran ranLater =>
    rw [show (script.andThen next).run scene.setting rules state = _ from
      @run_look scene rules _ _ script ⟨first⟩ next state]
    exact .andThen ran (ranLater _)

def Course.ends (course : Course) (limit : Nat) : Demand α where
  scene := course.scene
  run := course.run
  ready := course.Ready limit
  met := course.Completes
  look looking met := by
    rw [Course.Completes, run_look]
    exact .andThen (looking.only.runs _ _) met

def Course.takes (course : Course) (limit : Nat) : Demand α where
  scene := course.scene
  run := course.run
  ready := course.Ready limit
  met := course.Takes
  look _ met := by
    rw [Course.Takes, run_look]
    exact met

def Course.presses (course : Course) (limit : Nat) {σ : Type} : Demand (ForInStep σ) where
  scene := course.scene
  run := course.run
  ready := course.Ready limit
  met := course.Presses
  look _ met := by
    rw [Course.Presses, run_look]
    exact met

/-- Where the outlook is right and rules below the limit may be entered, the run ends. -/
abbrev Completing (course : Course) (limit : Nat) (outlook : Outlook) {α : Type}
    (script : Script α) : Prop :=
  Meets (course.ends limit) outlook script

abbrev Consuming (course : Course) (limit : Nat) (outlook : Outlook) {α : Type}
    (script : Script α) : Prop :=
  Meets (course.takes limit) outlook script

/-- Where the outlook is right the script takes a token, unless it says that it is done. -/
abbrev Pressing (course : Course) (limit : Nat) (outlook : Outlook) {σ : Type}
    (round : Script (ForInStep σ)) : Prop :=
  Meets (course.presses limit) outlook round

/-! ### Sequences and choices -/

theorem Completing.intro (completes : ∀ state, course.Ready limit state →
    outlook.Holds course.scene state → course.Completes script state) :
    Completing course limit outlook script :=
  ⟨completes⟩

theorem Completing.completes (completing : Completing course limit outlook script) (state : State)
    (ready : course.Ready limit state) (holds : outlook.Holds course.scene state) :
    course.Completes script state :=
  completing.meets state ready holds

theorem Consuming.further [consuming : Consuming course limit outlook script] (state : State)
    (ready : course.Ready limit state) (holds : outlook.Holds course.scene state) :
    course.Takes script state :=
  consuming.meets state ready holds

instance (priority := 50) [completing : Completing course limit (.tokens 0) script] :
    Completing course limit outlook script :=
  .intro fun state ready _ => completing.completes state ready (Outlook.holds_none state)

instance (priority := low) [looking : Looking script] :
    Completing course limit outlook script :=
  .intro fun state _ _ => by
    rw [Course.Completes, looking.only.unmoved]
    exact looking.only.runs _ _

instance [isStep : Decided script.isStep] : Completing course limit outlook script :=
  .intro fun state _ _ => .step isStep.holds course.run state

theorem Completing.bind (first : Completing course limit outlook script)
    (later : ∀ value, Completing course limit (.tokens 0) (next value)) :
    Completing course limit outlook (script >>= next) :=
  .intro fun state ready holds => (first.completes state ready holds).andThen
    ((later _).completes _ (ready.consume (course.consumes_run script state))
      (Outlook.holds_none _))

instance (priority := low) [first : Completing course limit outlook script]
    [later : ∀ value, Completing course limit (.tokens 0) (next value)] :
    Completing course limit outlook (script >>= next) :=
  first.bind later

instance (priority := low) {script : Script Unit} {next : Unit → Script α}
    [first : Completing course limit outlook script]
    [later : Completing course limit (.tokens 0) (next ())] :
    Completing course limit outlook (script >>= next) :=
  first.bind fun _ => later

instance (priority := low) {test : Script Bool} {yes no : Script α}
    [first : Completing course limit outlook test]
    [second : Completing course limit (.tokens 0) yes]
    [third : Completing course limit (.tokens 0) no] :
    Completing course limit outlook
      (test >>= fun answer => if answer = true then yes else no) :=
  first.bind fun _ => inferInstance

theorem Completing.bind_of_consuming (first : Completing course limit outlook script)
    (consuming : Consuming course limit outlook script)
    (later : ∀ value, Completing course 5 (.tokens 0) (next value)) :
    Completing course limit outlook (script >>= next) :=
  .intro fun state ready holds => (first.completes state ready holds).andThen
    ((later _).completes _ (ready.moved (course.consumes_run script state)
      (consuming.meets state ready holds)) (Outlook.holds_none _))

/-! ### Steps and nodes -/

instance (priority := high) {next : Unit → Script α}
    [later : Completing course 5 (.tokens count) (next ())] :
    Completing course limit (.tokens (count + 1)) (Script.bump >>= next) :=
  .intro fun state ready holds => by
    have further := position_bump (Lasting.onward holds)
    exact .andThen (.step rfl course.run state)
      (later.completes _ (ready.moved (.bump _ state) further) holds.bump)

instance [declares : Decided course.declares] (space : Namespace) (operator : String)
    (fixity : Fixity) : Completing course limit outlook (Script.declare space operator fixity) :=
  .intro fun state _ _ => .declare declares.holds space operator fixity state

instance (cause : Cause) (expected : List TokenKind)
    [inside : Completing course limit outlook body] :
    Completing course limit outlook (Script.fault cause expected body) :=
  .intro fun _ ready holds => .fault (inside.completes _ ready.entered holds.entered)

instance {body : Script (Option NodeKind)}
    [named : Answers (Option.all (mayClose course.declares)) body]
    [inside : Completing course limit outlook body] :
    Completing course limit outlook (Script.node body) :=
  .intro fun state ready holds => by
    have ends := inside.completes _ ready.entered holds.entered
    have allowed := named.accepted course.scene.setting course.run (entered course.scene state)
    rw [Course.Completes] at ends ⊢
    rw [Script.run, ← Grammar.entered]
    split
    · next ran =>
        rw [ran] at ends allowed
        exact .node allowed ends
    · next ran =>
        rw [ran] at ends
        exact .abandon ends

instance {kind : NodeKind} [allowed : Decided (mayClose course.declares kind)]
    [inside : Completing course limit outlook body] :
    Completing course limit outlook (Script.wrap kind body) :=
  .intro fun state ready holds => .wrap allowed.holds (inside.completes _
    (ready.consume (.mark _ state)) (holds.of_kindAhead fun _ => rfl))

/-! ### Loops -/

theorem runs_iterate (step : ∀ value, Completing course limit (.tokens 0) (round value))
    (onward : ∀ value, Pressing course limit (.tokens 0) (round value)) (bound : Nat) (value : σ)
    (ready : course.Ready limit state) (enough : state.ahead.length < bound) :
    Runs course.scene.setting course.declares course.entries (.loop value round) state
      (iterate (fun value state => (round value).run course.scene.setting course.run state)
        bound value state).1
      (iterate (fun value state => (round value).run course.scene.setting course.run state)
        bound value state).2 := by
  induction bound generalizing value state with
  | zero => exact absurd enough (Nat.not_lt_zero _)
  | succ bound ih =>
    have once := (step value).completes state ready (Outlook.holds_none state)
    rw [Course.Completes] at once
    have consumes := course.consumes_run (round value) state
    rw [iterate]
    split
    · next ran =>
        rw [ran] at once
        exact .last once
    · next next after ran =>
        have moved : course.Takes (round value) state :=
          (onward value).meets state ready (Outlook.holds_none state) next (by rw [ran])
        rw [Course.Takes, ran] at moved
        rw [ran] at once consumes
        have total := consumes.total
        exact .again once moved (ih next (ready.consume consumes) (by omega))

theorem Completing.loop {start : σ}
    (step : ∀ value, Completing course limit (.tokens 0) (round value))
    (onward : ∀ value, Pressing course limit (.tokens 0) (round value)) :
    Completing course limit outlook (Script.loop start round) :=
  .intro fun state ready _ => by
    have total := ready.total
    have enough := course.enough
    exact runs_iterate step onward _ start ready (by omega)

instance {start : σ} [step : ∀ value, Completing course limit (.tokens 0) (round value)]
    [onward : ∀ value, Pressing course limit (.tokens 0) (round value)] :
    Completing course limit outlook (Script.loop start round) :=
  .loop step onward

/-! ### Calls -/

theorem Completing.call (ranks : rule.rank < limit)
    (known : ∀ {state}, outlook.Holds course.scene state → rule.outlook.Holds course.scene state) :
    Completing course limit outlook (Script.call rule) :=
  .intro fun state ready holds => course.completes rule state ready.total (ready.enters ranks)
    (known holds)

instance : Completing course (limit + 1) (.tokens (count + 1)) (Script.call .update) :=
  .call (Nat.succ_pos limit) fun holds => Outlook.holds_one (holds 0 (Nat.succ_pos count))

instance : Completing course (limit + 2) outlook (Script.call .operand) :=
  .call (Nat.lt_add_left limit (Nat.lt_succ_self _)) fun _ => Outlook.holds_none _

instance : Completing course (limit + 2) outlook (Script.call .binderAtom) :=
  .call (Nat.lt_add_left limit (Nat.lt_succ_self _)) fun _ => Outlook.holds_none _

instance (level : Level) (least : Nat) (parent : Option ChainOperator) :
    Completing course (limit + 3) outlook (Script.call (.chain level least parent)) :=
  .call (Nat.lt_add_left limit (Nat.lt_succ_self _)) fun _ => Outlook.holds_none _

instance : Completing course (limit + 4) outlook (Script.call .expr) :=
  .call (Nat.lt_add_left limit (Nat.lt_succ_self _)) fun _ => Outlook.holds_none _

instance : Completing course (limit + 4) outlook (Script.call .binder) :=
  .call (Nat.lt_add_left limit (Nat.lt_succ_self _)) fun _ => Outlook.holds_none _

instance : Completing course (limit + 4) outlook (Script.call .type) :=
  .call (Nat.lt_add_left limit (Nat.lt_succ_self _)) fun _ => Outlook.holds_none _

instance : Completing course (limit + 5) outlook (Script.call .localDecl) :=
  .call (Nat.lt_add_left limit (Nat.lt_succ_self _)) fun _ => Outlook.holds_none _

/-! ### Scripts that take a token -/

instance [lasting : Lasting outlook] : Consuming course limit outlook Script.bump :=
  ⟨fun _ _ holds => position_bump (lasting.onward holds)⟩

instance [first : Consuming course limit outlook script] :
    Consuming course limit outlook (script >>= next) :=
  ⟨fun state ready holds => Nat.lt_of_lt_of_le (first.meets state ready holds)
    (course.consumes_run _ _).least⟩

instance {next : Unit → Script α} [later : ∀ value, Consuming course limit outlook (next value)] :
    Consuming course limit outlook (Script.forgetBrackets >>= next) :=
  ⟨fun state ready holds => (later ()).meets { state with openBrackets := 0 }
    (ready.consume (.of_ahead rfl rfl)) (holds.of_kindAhead fun _ => rfl)⟩

theorem position_entered (state : State) : (entered scene state).position = state.position := by
  obtain ⟨ahead, trail, reached, taken⟩ := takeTrivia_eq scene.setting state
  rw [entered, taken]
  rfl

instance (cause : Cause) (expected : List TokenKind)
    [inside : Consuming course limit outlook body] :
    Consuming course limit outlook (Script.fault cause expected body) where
  meets state ready holds := by
    have further : course.Takes body _ := inside.meets _ ready.entered holds.entered
    rw [Course.Takes, position_entered] at further
    exact further

theorem position_node {body : Script (Option NodeKind)}
    (further : course.Takes body (entered course.scene state)) :
    course.Takes (Script.node body) state := by
  rw [Course.Takes, position_entered] at further
  rw [Course.Takes, Script.run, ← Grammar.entered]
  split
  · next ran =>
      rw [ran] at further
      exact further
  · next ran =>
      rw [ran] at further
      exact further

instance {body : Script (Option NodeKind)} [inside : Consuming course limit outlook body] :
    Consuming course limit outlook (Script.node body) :=
  ⟨fun _ ready holds => position_node (inside.meets _ ready.entered holds.entered)⟩

instance {kind : NodeKind} [inside : Consuming course limit outlook body] :
    Consuming course limit outlook (Script.wrap kind body) :=
  ⟨fun state ready holds => inside.meets _ (ready.consume (.mark _ state))
    (holds.of_kindAhead fun _ => rfl)⟩

instance : Consuming course (limit + 1) (.tokens (count + 1)) (Script.call .update) where
  meets state ready holds := course.grasps .update state ready.total
    (ready.enters (Nat.succ_pos limit)) (Outlook.holds_one (holds 0 (Nat.succ_pos count)))

/-! ### Rounds -/

instance (answer : σ) :
    Pressing course limit outlook (pure (.done answer) : Script (ForInStep σ)) :=
  ⟨fun _ _ _ _ goesOn => nomatch goesOn⟩

instance (priority := high) {next : α → Script (ForInStep σ)}
    [first : Consuming course limit outlook script] :
    Pressing course limit outlook (script >>= next) :=
  ⟨fun state ready holds _ _ => Nat.lt_of_lt_of_le (first.meets state ready holds)
    (course.consumes_run _ _).least⟩

instance (priority := low) {next : α → Script (ForInStep σ)}
    [later : ∀ value, Pressing course limit (.tokens 0) (next value)] :
    Pressing course limit outlook (script >>= next) where
  meets state ready _ answer goesOn := by
    have consumes := course.consumes_run script state
    exact Nat.lt_of_le_of_lt consumes.least
      ((later _).meets _ (ready.consume consumes) (Outlook.holds_none _) answer goesOn)

theorem Pressing.eat (onward : wanted ≠ .eof) (second : Pressing course limit (.tokens 0) no) :
    Pressing course limit outlook
      (eat wanted >>= fun answer => if answer = true then yes else no) where
  meets state ready _ next := by
    by_cases seen : kindAhead course.scene state 0 = wanted
    · rw [← seen] at onward
      rw [run_bind, run_eat_of_sees seen]
      exact fun _ => Nat.lt_of_lt_of_le (position_bump onward) (course.consumes_run yes _).least
    · rw [run_bind, run_eat_of_not_sees seen]
      exact second.meets state ready (Outlook.holds_none state) next

instance [proper : Decided (isProper wanted)] [second : Pressing course limit (.tokens 0) no] :
    Pressing course limit outlook
      (eat wanted >>= fun answer => if answer = true then yes else no) :=
  .eat (ne_eof_of_isProper proper.holds) second

instance [isMark : Decided wanted.isBlockMark] [second : Pressing course limit (.tokens 0) no] :
    Pressing course limit outlook
      (eat wanted >>= fun answer => if answer = true then yes else no) :=
  .eat (by rintro rfl; cases isMark.holds) second

theorem position_kind {next : TokenKind → Script α}
    (further : course.Takes (next (kindAhead course.scene state 0)) state) :
    course.Takes (kind >>= next) state :=
  further

theorem position_inside {kind : NodeKind}
    (further : course.Takes body (entered course.scene state)) :
    course.Takes (inside kind body) state := by
  rw [Course.Takes, position_entered] at further
  exact further

theorem Pressing.test {test : Script Bool} [Looking test]
    (takes : ∀ state, course.Ready limit state →
      (test.run course.scene.setting course.run state).1 = true → course.Takes body state) :
    Pressing course limit outlook (do
      if (← test) then
        body
        pure (ForInStep.yield ())
      else pure (.done ())) where
  meets state ready holds next := by
    rw [run_look]
    split
    · next seen => exact fun _ => takes state ready seen
    · exact fun goesOn => nomatch goesOn

/-! ### Words -/

theorem Completing.inside {kind : NodeKind} [Decided (mayClose course.declares kind)]
    (content : Completing course limit outlook body) :
    Completing course limit outlook (inside kind body) := by
  infer_instance

instance {kind : NodeKind} [Decided (mayClose course.declares kind)]
    [content : Completing course limit outlook body] :
    Completing course limit outlook (inside kind body) :=
  content.inside

/-! ### Words that take a token -/

instance [lasting : Lasting outlook] : Consuming course limit outlook (progress item) where
  meets state ready holds := by
    have consumes := course.consumes_run item state
    change _ < (Script.run course.scene.setting course.run (if
      (item.run course.scene.setting course.run state).2.position = state.position then
        misfit [] else pure ()) (item.run course.scene.setting course.run state).2).2.position
    generalize (item.run course.scene.setting course.run state).2 = after at consumes ⊢
    split
    · next unmoved =>
        have onward : Outlook.onward.Holds course.scene after := by
          show kindAhead course.scene after 0 ≠ .eof
          rw [consumes.kindAhead unmoved]
          exact lasting.onward holds
        have taken : Consuming course limit .onward (misfit []) := inferInstance
        exact unmoved ▸ taken.meets after (ready.consume consumes) onward
    · next moved => exact Nat.lt_of_le_of_ne consumes.least (Ne.symm moved)

theorem position_recover (expected stops : List TokenKind)
    (goesOn : ((seesEnd stops).run course.scene.setting course.run state).1 = false) :
    course.Takes (recover expected stops) state := by
  have turns : 0 < course.scene.setting.rounds := Nat.zero_lt_of_lt course.enough
  obtain ⟨count, skipped, onward⟩ := run_skipTo turns goesOn
    _ expected
  rw [Course.Takes, run_look, goesOn]
  show _ < ((Script.fault (Cause.ofMisfit (kindAhead course.scene state 0)) expected
    (skipTo stops)).run course.scene.setting course.run state).2.position
  rw [skipped]
  exact position_skipOver (onward.1 0 (Nat.zero_le count)) _ _ _

/-- Kinds of tokens that end a construct when something in it fits nowhere. -/
def isEnding (kind : TokenKind) : Bool :=
  kind = .eof || kind = .layoutSep || kind = .layoutEnd || kind.startsTopLevel || kind.isClosing

theorem run_seesEnd_of_not_isEnding {rules : Rule → State → Bool × State}
    (goesOn : isEnding (kindAhead scene state 0) = false) :
    ((seesEnd []).run scene.setting rules state).1 = false := by
  rw [isEnding, Bool.or_eq_false_iff] at goesOn
  obtain ⟨plain, opens⟩ := goesOn
  rw [run_look,
    show (kind.run scene.setting rules state).1 = kindAhead scene state 0 from rfl, plain, opens]
  rfl

theorem position_enter {yes no : Script α}
    (deeper : course.Takes yes { state with depth := state.depth + 1 })
    (goesOn : isEnding (kindAhead course.scene state 0) = false) :
    course.Takes (enter >>= fun entered => if entered = true then yes else no) state := by
  rw [Course.Takes, run_bind, run_enter]
  split
  · exact deeper
  · exact Nat.lt_of_lt_of_le (position_recover [] [] (run_seesEnd_of_not_isEnding goesOn))
      (course.consumes_run no _).least

set_option synthInstance.maxSize 256 in
instance : Completing course limit outlook enter := by
  unfold enter
  infer_instance

instance (priority := high) {yes no : Script α} [first : Completing course limit outlook yes]
    [second : Completing course limit (.tokens 0) no] :
    Completing course limit outlook
      (enter >>= fun entered => if entered = true then yes else no) :=
  .intro fun state ready holds => by
    have entering : Completing course limit outlook enter := inferInstance
    refine .andThen (entering.completes state ready holds) ?_
    rw [run_bind, run_enter]
    split
    · exact first.completes _ ready.deeper (holds.of_kindAhead fun _ => rfl)
    · exact second.completes _ (ready.consume (course.consumes_run (recover [] []) state))
        (Outlook.holds_none _)

/-! ### Blocks -/

set_option synthInstance.maxSize 512 in
instance [Completing course limit (.tokens 0) item] (required : Option (List TokenKind))
    (empty : Bool) : Completing course limit outlook (blockRound item required empty) := by
  unfold blockRound
  cases required <;> (dsimp only; infer_instance)

instance (item : Script Unit) (required : Option (List TokenKind)) (empty : Bool) :
    Pressing course limit outlook (blockRound item required empty) := by
  refine .kind (fun kind _ => ?_) (fun kind _ => ?_) (fun problem => ?_) ?_
  · cases required <;> (dsimp only; infer_instance)
  · cases required <;> (dsimp only; infer_instance)
  · cases required <;> (dsimp only; infer_instance)
  · simp only [reduceCtorEq, decide_false, decide_true, Bool.false_or, if_true]
    cases required <;> (dsimp only; infer_instance)

instance [Completing course limit (.tokens 0) item] (required : Option (List TokenKind)) :
    Completing course limit outlook (block item required) := by
  rw [block_eq]
  infer_instance

end Offside.Grammar
