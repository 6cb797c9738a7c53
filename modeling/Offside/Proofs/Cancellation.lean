import Offside.Proofs.Lossless

/-!
# Giving up

A run may be given up before each declaration.  How it goes on depends only on
the answers given so far: two runs that get the same answers do the same.  And
nothing but the first answer to give up ends a run early, because no
production asks and the answer is not forgotten.  So a run is given up right
after that answer, and a run without one goes on as if nobody had asked.
-/

namespace Offside.Grammar

variable {setting : Setting} {isCancelled : Nat → Bool} {α β σ : Type}

/-! ### Runs with the same answers -/

def Setting.answering (setting : Setting) (isCancelled : Nat → Bool) : Setting :=
  { setting with isCancelled }

/--
No question is taken back, and with the same answers to the questions that the
leader asks the echo does the same.
-/
def Echoes (setting : Setting) (isCancelled : Nat → Bool)
    (leader echo : State → α × State) : Prop :=
  ∀ state, state.polls ≤ (leader state).2.polls ∧
    ((∀ asked, state.polls ≤ asked → asked < (leader state).2.polls →
        isCancelled asked = setting.isCancelled asked) →
      echo state = leader state)

namespace Echoes

theorem andThen {leader echo : State → α × State} {next onward : α → State → β × State}
    (first : Echoes setting isCancelled leader echo)
    (later : ∀ value, Echoes setting isCancelled (next value) (onward value)) :
    Echoes setting isCancelled (fun state => next (leader state).1 (leader state).2)
      (fun state => onward (echo state).1 (echo state).2) := by
  intro state
  obtain ⟨early, sameFirst⟩ := first state
  obtain ⟨late, sameLater⟩ := later (leader state).1 (leader state).2
  refine ⟨Nat.le_trans early late, fun agree => ?_⟩
  dsimp only
  rw [sameFirst fun asked from_ upTo => agree asked from_ (Nat.lt_of_lt_of_le upTo late)]
  exact sameLater fun asked from_ upTo => agree asked (Nat.le_trans early from_) upTo

theorem of_polls {step : State → α × State} (quiet : ∀ state, (step state).2.polls = state.polls) :
    Echoes setting isCancelled step step :=
  fun state => ⟨Nat.le_of_eq (quiet state).symm, fun _ => rfl⟩

theorem within {leader echo : State → α × State} (inner : Echoes setting isCancelled leader echo)
    (before : State → State) (quietBefore : ∀ state, (before state).polls = state.polls)
    (after : State → α × State → β × State)
    (quietAfter : ∀ state outcome, (after state outcome).2.polls = outcome.2.polls) :
    Echoes setting isCancelled (fun state => after state (leader (before state)))
      (fun state => after state (echo (before state))) := by
  intro state
  obtain ⟨later, same⟩ := inner _
  rw [quietBefore] at later same
  rw [quietAfter]
  exact ⟨later, fun agree => congrArg _ (same agree)⟩

theorem iterate {round back : σ → State → ForInStep σ × State}
    (once : ∀ value, Echoes setting isCancelled (round value) (back value)) (bound : Nat)
    (value : σ) :
    Echoes setting isCancelled (Grammar.iterate round bound value)
      (Grammar.iterate back bound value) := by
  induction bound generalizing value with
  | zero => exact of_polls fun _ => rfl
  | succ bound ih =>
    intro state
    obtain ⟨early, sameFirst⟩ := once value state
    rw [Grammar.iterate, Grammar.iterate]
    split
    · next last after ran =>
        rw [ran] at early sameFirst
        exact ⟨early, fun agree => by rw [sameFirst agree]⟩
    · next onward after ran =>
        rw [ran] at early sameFirst
        obtain ⟨late, sameLater⟩ := ih onward after
        refine ⟨Nat.le_trans early late, fun agree => ?_⟩
        rw [sameFirst fun asked from_ upTo => agree asked from_ (Nat.lt_of_lt_of_le upTo late)]
        exact sameLater fun asked from_ upTo => agree asked (Nat.le_trans early from_) upTo

end Echoes

theorem polls_takeTrivia (setting : Setting) (state : State) :
    (state.takeTrivia setting).polls = state.polls := by
  obtain ⟨ahead, trail, reached, taken⟩ := takeTrivia_eq setting state
  rw [taken]

theorem polls_bump (setting : Setting) (state : State) :
    (state.bump setting).polls = state.polls := by
  obtain ⟨ahead, trail, reached, position, openBrackets, bumped⟩ := bump_eq setting state
  rw [bumped]

theorem polls_report (setting : Setting) (state : State) (cause : Cause)
    (expected : List TokenKind) : (state.report setting cause expected).polls = state.polls := by
  obtain ⟨trail, lastReport, reported⟩ := report_eq setting state cause expected
  rw [reported]

/-- A node is finished if its body says of which kind it is, and given up otherwise. -/
def closed : Option NodeKind × State → Bool × State
  | (some kind, after) => (true, after.mark (.finish kind none))
  | (none, after) => (false, after.mark .abandon)

theorem Script.echoes {rules others : Rule → State → Bool × State}
    (kept : ∀ rule, Echoes setting isCancelled (rules rule) (others rule)) (script : Script α) :
    Echoes setting isCancelled (script.run setting rules)
      (script.run (setting.answering isCancelled) others) := by
  induction script with
  | result | peek | search | position | insideBrackets | sighting | lookup | reportsUnknown
  | blame | leave | forgetBrackets => exact .of_polls fun _ => rfl
  | andThen first next ihFirst ihNext => exact ihFirst.andThen ihNext
  | bump => exact .of_polls fun state => polls_bump setting state
  | report cause expected => exact .of_polls fun state => polls_report setting state cause expected
  | fault cause expected body ih =>
    exact ih.within (fun state => (state.takeTrivia setting).mark .start)
      (polls_takeTrivia setting)
      (fun state outcome => ((), outcome.2.mark (.finish .error
        (some (outcome.2.resume setting _)))))
      fun _ _ => rfl
  | node body ih =>
    refine ih.within (fun state => (state.takeTrivia setting).mark .start)
      (polls_takeTrivia setting)
      (fun _ outcome => closed outcome) ?_
    rintro - ⟨answer, after⟩
    cases answer <;> rfl
  | wrap kind body ih =>
    exact ih.within (fun state => state.mark _) (fun _ => rfl)
      (fun _ outcome => ((), outcome.2.mark _)) fun _ _ => rfl
  | deepen =>
    refine .of_polls fun state => ?_
    rw [Script.run]
    split <;> rfl
  | loop start round ih => exact .iterate ih setting.rounds start
  | call rule => exact kept rule
  | declare space operator fixity =>
    refine .of_polls fun state => ?_
    obtain ⟨operators, declared, done⟩ := declare_eq setting state space operator fixity
    rw [Script.run, done]
  | poll =>
    intro state
    refine ⟨Nat.le_succ _, fun agree => ?_⟩
    have same := agree state.polls (Nat.le_refl _) (Nat.lt_succ_self _)
    exact congrArg (fun answer => (answer, { state with polls := state.polls + 1 })) same

theorem runRule_echoes (scripts : Rule → Script Bool) (bound : Nat) (rule : Rule) :
    Echoes setting isCancelled (runRule setting scripts bound rule)
      (runRule (setting.answering isCancelled) scripts bound rule) := by
  induction bound generalizing rule with
  | zero => exact .of_polls fun state => polls_report setting state .syntactic []
  | succ bound ih => exact (scripts rule).echoes ih

/-! ### Answers that are heeded -/

theorem Proceeds.polls {phase : Phase} {before after : State}
    (proceeds : Proceeds setting false phase before after) : after.polls = before.polls := by
  induction proceeds with
  | stay | steer => rfl
  | trans _ _ left right => exact right.trans left
  | @bump _ state => exact polls_bump setting state
  | report _ state expected => exact polls_report setting state .syntactic expected
  | @skip _ state cause expected count =>
    obtain ⟨_, _, _, _, _, skipped⟩ := skipOver_eq setting state cause expected (count + 1)
    rw [skipped]
  | @node _ state _ _ _ _ _ ih | @blame _ state _ _ _ _ ih | @enclose state _ _ _ _ ih
  | @abandon _ state _ _ ih | @chain state _ _ ih =>
    exact ih.trans (polls_takeTrivia setting state)
  | wrap _ _ _ ih | nest _ _ _ ih | within _ ih => exact ih
  | @block _ state after _ _ _ ih =>
    exact (polls_bump setting after).trans (ih.trans (polls_bump setting state))
  | @unclosed _ state _ _ _ _ ih => exact ih.trans (polls_bump setting state)
  | @join state kinds =>
    obtain ⟨_, _, _, _, _, taken⟩ := iterate_bump_eq setting kinds.length state
    rw [taken]
  | ask _ asked => cases asked

/--
Between two counts of questions all answers were to go on, but for the last
one if the run was given up.
-/
structure Heeds (isCancelled : Nat → Bool) (before : Nat) (cancelled : Bool) (after : Nat) :
    Prop where
  least : before ≤ after
  asked : cancelled = true → before < after
  answers : ∀ asked, before ≤ asked → asked < after →
    (isCancelled asked = true ↔ cancelled = true ∧ asked + 1 = after)

namespace Heeds

variable {before middle after : Nat} {cancelled : Bool}

theorem nothing (count : Nat) : Heeds isCancelled count false count where
  least := Nat.le_refl count
  asked := by rintro ⟨⟩
  answers _ from_ upTo := absurd (Nat.lt_of_le_of_lt from_ upTo) (Nat.lt_irrefl count)

theorem last (given : isCancelled before = true) : Heeds isCancelled before true (before + 1) where
  least := Nat.le_succ before
  asked _ := Nat.lt_succ_self before
  answers asked from_ upTo := by
    have only : asked = before := Nat.le_antisymm (Nat.le_of_lt_succ upTo) from_
    rw [only]
    exact iff_of_true given ⟨rfl, rfl⟩

theorem cons (given : isCancelled before = false)
    (later : Heeds isCancelled (before + 1) cancelled after) :
    Heeds isCancelled before cancelled after where
  least := Nat.le_of_succ_le later.least
  asked gaveUp := Nat.lt_of_succ_lt (later.asked gaveUp)
  answers asked from_ upTo := by
    rcases Nat.eq_or_lt_of_le from_ with rfl | beyond
    · refine iff_of_false (by rw [given]; exact Bool.false_ne_true) ?_
      rintro ⟨gaveUp, isLast⟩
      have := later.asked gaveUp
      omega
    · exact later.answers asked beyond upTo

end Heeds

section Modules

variable {conduct : Conduct}

def Quiet (conduct : Conduct) (script : Script α) : Prop :=
  ∀ state, (script.run conduct.scene.setting conduct.run state).2.polls = state.polls

def Heedful (conduct : Conduct) (script : Script Bool) : Prop :=
  ∀ state, Heeds conduct.scene.setting.isCancelled state.polls
    (script.run conduct.scene.setting conduct.run state).1
    (script.run conduct.scene.setting conduct.run state).2.polls

variable {script : Script α}

theorem Disciplined.quiet (silent : conduct.asks = false)
    (disciplined : Disciplined conduct .top (.tokens 0) script) : Quiet conduct script := by
  intro state
  have proceeds := disciplined.proceeds state (Outlook.holds_none state)
  rw [silent] at proceeds
  exact proceeds.polls

theorem Quiet.bind {next : α → Script β} (first : Quiet conduct script)
    (later : ∀ value, Quiet conduct (next value)) : Quiet conduct (script >>= next) := by
  intro state
  rw [run_bind, later, first]

theorem run_pure (value : α) (state : State) :
    Script.run conduct.scene.setting conduct.run (pure value) state = (value, state) :=
  rfl

theorem quiet_bump : Quiet conduct Script.bump :=
  fun state => polls_bump conduct.scene.setting state

theorem quiet_pure (value : α) : Quiet conduct (pure value) :=
  fun _ => rfl

theorem Quiet.heedful {next : α → Script Bool} (quiet : Quiet conduct script)
    (later : ∀ value, Heedful conduct (next value)) : Heedful conduct (script >>= next) := by
  intro state
  rw [← quiet state]
  exact later _ _

theorem Heedful.bind {script : Script Bool} {next : Bool → Script Bool}
    (heedful : Heedful conduct script) (quiet : ∀ value, Quiet conduct (next value))
    (keeps : ∀ value state, ((next value).run conduct.scene.setting conduct.run state).1 = value) :
    Heedful conduct (script >>= next) := by
  intro state
  rw [run_bind, keeps, quiet]
  exact heedful state

theorem heedful_loop {next : Script (ForInStep Bool)} (quiet : Quiet conduct next)
    (goesOn : ∀ state, (next.run conduct.scene.setting conduct.run state).1.value = false) :
    Heedful conduct (Script.loop false fun _ => do
      if (← Script.poll) then pure (.done true) else next) := by
  intro state
  rw [Script.run]
  generalize conduct.scene.setting.rounds = bound
  induction bound generalizing state with
  | zero => exact .nothing state.polls
  | succ bound ih =>
    have asked : Script.run conduct.scene.setting conduct.run .poll state =
        (conduct.scene.setting.isCancelled state.polls,
          { state with polls := state.polls + 1 }) := rfl
    rw [iterate, run_bind, asked]
    cases given : conduct.scene.setting.isCancelled state.polls with
    | true => exact .last given
    | false =>
      have polls := quiet { state with polls := state.polls + 1 }
      have answer := goesOn { state with polls := state.polls + 1 }
      refine .cons given ?_
      rw [if_neg Bool.false_ne_true]
      generalize next.run conduct.scene.setting conduct.run _ = outcome at polls answer ⊢
      obtain ⟨outcome, after⟩ := outcome
      change after.polls = state.polls + 1 at polls
      rw [← polls]
      cases outcome with
      | done last =>
        rw [show last = false from answer]
        exact .nothing after.polls
      | yield onward =>
        rw [show onward = false from answer]
        exact ih after

variable (silent : conduct.asks = false)
include silent

theorem heedful_topLevel : Heedful conduct topLevel := by
  refine heedful_loop (Disciplined.quiet silent inferInstance) fun state => ?_
  rw [run_bind, run_look]
  split
  · rw [run_pure]
    rfl
  · rw [run_bind, run_pure]
    rfl

theorem heedful_moduleItems : Heedful conduct moduleItems := by
  have items := heedful_topLevel silent
  have header : Disciplined conduct .top (.tokens 0) (do
      if (← sees (.keyword .moduleWord)) then moduleHeader) := inferInstance
  have starts : Disciplined conduct .top (.tokens 0) (eat .layoutStart) := inferInstance
  have ends (cancelled : Bool) : Disciplined conduct .top (.tokens 0) (do
      ignore (expect .layoutEnd)
      pure cancelled) := inferInstance
  have body : Heedful conduct (do
      if (← eat .layoutStart) then
        let cancelled ← topLevel
        ignore (expect .layoutEnd)
        pure cancelled
      else topLevel) := by
    refine (starts.quiet silent).heedful fun started => ?_
    cases started with
    | true =>
      refine items.bind (fun cancelled => (ends cancelled).quiet silent) fun cancelled state => ?_
      rw [run_bind, run_pure]
    | false =>
      exact items
  intro state
  have quiet := header.quiet silent state
  rw [run_look] at quiet
  rw [run_look]
  split at quiet
  · next seen =>
      rw [if_pos seen, run_bind, ← quiet]
      exact body _
  · next unseen =>
      rw [if_neg unseen]
      exact items state

theorem heedful_wholeModule : Heedful conduct wholeModule := by
  have leftover : Disciplined conduct .top (.tokens 0) (whileSeen seesMore (misfit [])) :=
    inferInstance
  refine (heedful_moduleItems silent).bind (fun cancelled => ?_) fun cancelled state => ?_
  · cases cancelled with
    | true =>
      exact quiet_pure true
    | false =>
      exact (leftover.quiet silent).bind fun _ => quiet_bump.bind fun _ => quiet_pure false
  · cases cancelled with
    | true => rw [if_pos rfl, run_pure]
    | false => rw [if_neg Bool.false_ne_true, run_bind, run_bind, run_pure]

end Modules

end Offside.Grammar

namespace Offside

namespace Job

open Grammar

variable (job : Job) (other : Nat → Bool)

theorem heeds_ending : Heeds job.isCancelled 0 job.ending.1 job.ending.2.polls := by
  have heedful : Heedful (job.conduct false) wholeModule := heedful_wholeModule rfl
  rw [job.ending_eq_run false]
  exact heedful job.opening

/-- The same text, read under another condition for giving up. -/
@[reducible]
def under : Job :=
  { job with isCancelled := other }

theorem ending_eq_of_answers
    (agree : ∀ asked < job.ending.2.polls, other asked = job.isCancelled asked) :
    (job.under other).ending = job.ending := by
  have echoes : Echoes job.scene.setting other (wholeModule.execute job.scene.setting)
      (wholeModule.execute (job.under other).scene.setting) :=
    wholeModule.echoes (runRule_echoes scriptOf _)
  rw [ending] at agree ⊢
  exact (echoes job.opening).2 fun asked _ early => agree asked early

theorem unlessCancelled?_run :
    Parse.unlessCancelled? job.options job.seed job.isCancelled job.source =
      if job.ending.1 then none else some job.run.parse := by
  rw [Parse.unlessCancelled?, job.cancelled_run]

theorem ending_never (never : ∀ asked, job.isCancelled asked = false) : job.ending.1 = false := by
  have heeds := job.heeds_ending
  cases gaveUp : job.ending.1 with
  | false => rfl
  | true =>
    have asked := heeds.asked gaveUp
    have answer := heeds.answers _ (Nat.zero_le _) (Nat.sub_one_lt_of_lt asked)
    have isTrue := answer.mpr ⟨gaveUp, Nat.sub_add_cancel asked⟩
    rw [never] at isTrue
    cases isTrue

end Job

namespace Parse

/--
The root of a parse that is not given up has a row of trees as its children and
then the end of the text, and productions have built the row from the tokens.
-/
theorem builds_root (options : ParseOptions) (seed : OperatorTable) (source : String) :
    ∃ span row stop, (withTable options seed source).root =
        .node .wholeModule span none (row ++ [.leaf (Token.virtual .eof stop)]) ∧
      Grammar.Builds source.utf8ByteSize 0 .top ([], Layout.tokens options.tabWidth source)
        (row, [Token.virtual .eof stop]) :=
  Job.builds_run ⟨options, seed, fun _ => false, source⟩ (Job.ending_never _ fun _ => rfl)

/--
A parse that nobody gives up on asks a number of questions.  If one of as many
answers is to give up, the parse is given up right after the first such
answer.  Otherwise it asks as often, and ends with the tree and the table, and
so with the errors, of the parse that nobody gives up on.
-/
theorem givenUp_at_first_answer (options : ParseOptions) (seed : OperatorTable)
    (isCancelled : Nat → Bool) (source : String) :
    (∀ first < (run options seed (fun _ => false) source).polls, isCancelled first = true →
      (∀ earlier < first, isCancelled earlier = false) →
        unlessCancelled? options seed isCancelled source = none ∧
          (run options seed isCancelled source).polls = first + 1) ∧
    ((∀ asked < (run options seed (fun _ => false) source).polls, isCancelled asked = false) →
      unlessCancelled? options seed isCancelled source = some (withTable options seed source) ∧
        (run options seed isCancelled source).polls =
          (run options seed (fun _ => false) source).polls) := by
  let job : Job := ⟨options, seed, isCancelled, source⟩
  have answer := job.unlessCancelled?_run
  rw [answer, job.polls_run, (job.under fun _ => false).polls_run]
  refine ⟨fun first early given others => ?_, fun goesOn => ?_⟩
  · have heeds : Grammar.Heeds isCancelled 0 job.ending.1 job.ending.2.polls := job.heeds_ending
    cases gaveUp : job.ending.1 with
    | false =>
      -- All answers to this run were to go on, so the other one asked no more questions.
      have silent : ∀ asked < job.ending.2.polls, false = isCancelled asked := by
        intro asked upTo
        have answer := heeds.answers asked (Nat.zero_le asked) upTo
        simpa [gaveUp] using answer
      rw [job.ending_eq_of_answers (fun _ => false) silent] at early
      rw [← silent first early] at given
      cases given
    | true =>
      have asked := heeds.asked gaveUp
      have last := (heeds.answers _ (Nat.zero_le _) (Nat.sub_one_lt_of_lt asked)).mpr
        ⟨gaveUp, Nat.sub_add_cancel asked⟩
      have notEarlier : ¬ job.ending.2.polls - 1 < first := by
        intro earlier
        rw [others _ earlier] at last
        cases last
      have isLast := (heeds.answers first (Nat.zero_le first) (by omega)).mp given
      exact ⟨if_pos rfl, isLast.2.symm⟩
  · have same : job.ending = (job.under fun _ => false).ending :=
      (job.under fun _ => false).ending_eq_of_answers isCancelled goesOn
    have parsed : job.run.parse = (job.under fun _ => false).run.parse := by
      rw [job.run_eq, (job.under fun _ => false).run_eq, same]
    rw [same, Job.ending_never _ fun _ => rfl, parsed]
    exact ⟨if_neg Bool.false_ne_true, rfl⟩

end Parse

end Offside
