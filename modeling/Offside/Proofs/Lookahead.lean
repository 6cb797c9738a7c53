import Offside.Grammar.Modules
import Offside.Proofs.OperatorNodes
import Offside.Proofs.Retention

/-!
# Looking ahead

What a script does depends on the tokens ahead, and many scripts only look at
them.  This module says what the scripts see that decide how reading goes on.
-/

namespace Offside.Grammar

variable {scene : Scene} {rules : Rule → State → Bool × State} {first state : State} {α β : Type}

def kindAhead (scene : Scene) (state : State) (ahead : Nat) : TokenKind :=
  (state.tokenAt scene.setting ahead).kind

theorem ahead_of_kindAhead (notEnd : kindAhead scene first 0 ≠ .eof) :
    ∃ lexeme rest, first.ahead = lexeme :: rest ∧
      first.tokenAt scene.setting 0 = lexeme.token := by
  match found : first.ahead with
  | [] =>
    rw [kindAhead, State.tokenAt, found] at notEnd
    exact absurd rfl notEnd
  | lexeme :: rest =>
    refine ⟨lexeme, rest, rfl, ?_⟩
    rw [State.tokenAt, found]
    rfl

def entered (scene : Scene) (state : State) : State :=
  (state.takeTrivia scene.setting).mark .start

theorem run_bind (script : Script α) (next : α → Script β) (state : State) :
    (script >>= next).run scene.setting rules state =
      (next (script.run scene.setting rules state).1).run scene.setting rules
        (script.run scene.setting rules state).2 := by
  rfl

theorem run_ignore (script : Script α) (state : State) :
    ((ignore script).run scene.setting rules state).2 =
      (script.run scene.setting rules state).2 := by
  rfl

/-! ### Scripts that only look -/

@[reducible]
def Script.isLook {α : Type} : Script α → Bool
  | .result _ | .peek _ | .search _ _ | .position | .insideBrackets | .sighting | .lookup _ _
  | .reportsUnknown => true
  | _ => false

/-- The script only looks at what is ahead. -/
inductive Script.Looks : {α : Type} → Script α → Prop where
  | look {α : Type} {script : Script α} (isLook : script.isLook = true) : Looks script
  | andThen {α β : Type} {script : Script α} {next : α → Script β} (first : Looks script)
      (later : ∀ value, Looks (next value)) : Looks (.andThen script next)

/-- That a script only looks follows from how it is put together. -/
class Looking (script : Script α) : Prop where
  only : script.Looks

theorem Script.Looks.unmoved {script : Script α} (looks : script.Looks) (state : State) :
    (script.run scene.setting rules state).2 = state := by
  induction looks generalizing state with
  | @look _ script isLook => cases script <;> first | rfl | cases isLook
  | andThen _ _ first later => exact (later _ _).trans (first state)

theorem run_look (script : Script α) [looking : Looking script] (next : α → Script β)
    (state : State) :
    (script >>= next).run scene.setting rules state =
      (next (script.run scene.setting rules state).1).run scene.setting rules state := by
  rw [run_bind, looking.only.unmoved]

instance {script : Script α} [isLook : Decided script.isLook] : Looking script :=
  ⟨.look isLook.holds⟩

instance (value : α) : Looking (pure value : Script α) :=
  ⟨.look rfl⟩

instance {script : Script α} {next : α → Script β} [first : Looking script]
    [later : ∀ value, Looking (next value)] : Looking (script >>= next) :=
  ⟨.andThen first.only fun value => (later value).only⟩

instance {condition : Prop} [Decidable condition] {yes no : Script α}
    [first : Looking yes] [second : Looking no] : Looking (if condition then yes else no) := by
  split
  · exact first
  · exact second

/-! ### What is seen -/

theorem kindAhead_of_seesOperator {spelling : String}
    (seen : ((seesOperator spelling).run scene.setting rules state).1 = true) :
    kindAhead scene state 0 = .operator :=
  of_decide_eq_true (Bool.and_eq_true_iff.mp seen).1

theorem kindAhead_of_seesWord {word : String}
    (seen : ((seesWord word).run scene.setting rules state).1 = true) :
    kindAhead scene state 0 = .lowerName :=
  of_decide_eq_true (Bool.and_eq_true_iff.mp seen).1

theorem run_andKindAt (test : Script Bool) [Looking test]
    (holds : TokenKind → Bool) (index : Nat) (state : State) :
    (test >>= fun answer => if answer = true then
      kindAt index >>= fun kind => pure (holds kind) else pure false).run scene.setting
        rules state =
      ((test.run scene.setting rules state).1 && holds (kindAhead scene state index),
        state) := by
  rw [run_look]
  cases (test.run scene.setting rules state).1 <;> rfl

theorem run_seesNegativeInteger (state : State) :
    seesNegativeInteger.run scene.setting rules state =
      (((seesOperator "-").run scene.setting rules state).1 &&
        decide (kindAhead scene state 1 = .integer), state) :=
  run_andKindAt _ _ 1 state

theorem run_seesNegativeNumber (state : State) :
    seesNegativeNumber.run scene.setting rules state =
      (((seesOperator "-").run scene.setting rules state).1 &&
        (decide (kindAhead scene state 1 = .integer) ||
          decide (kindAhead scene state 1 = .number)), state) :=
  run_andKindAt _
    _ 1 state

theorem run_seesSelection (state : State) :
    seesSelection.run scene.setting rules state =
      (decide (kindAhead scene state 0 = .dot) && (kindAhead scene state 1).isLabel,
        state) :=
  run_andKindAt (sees .dot) TokenKind.isLabel 1 state

theorem kindAhead_of_seesUpdate (seen : (seesUpdate.run scene.setting rules state).1 = true) :
    kindAhead scene state 0 = .openBrace := by
  rw [run_look] at seen
  by_cases isBrace : kindAhead scene state 0 = .openBrace
  · exact isBrace
  · rw [show ((sees .openBrace).run scene.setting rules state).1 = false from
      decide_eq_false isBrace] at seen
    cases seen

theorem run_seesRoles (state : State) :
    seesRoles.run scene.setting rules state =
      (((seesWord "role").run scene.setting rules state).1 &&
        decide (kindAhead scene state 1 = .upperName), state) :=
  run_andKindAt _ _ 1 state

theorem run_seesKindItem (state : State) :
    seesKindItem.run scene.setting rules state =
      (((seesWord "kind").run scene.setting rules state).1 &&
        decide (kindAhead scene state 1 = .upperName), state) :=
  run_andKindAt _ _ 1 state

def operatorSeen (scene : Scene) (level : Level) (state : State) : Option ChainOperator :=
  (level.nameIn (state.peek scene.setting)).map fun name =>
    ⟨name, state.operators.fixity level.space name⟩

theorem run_operatorAhead (level : Level) (state : State) :
    (operatorAhead level).run scene.setting rules state =
      (operatorSeen scene level state, state) := by
  have named : (operatorName level).run scene.setting rules state =
      (level.nameIn (state.peek scene.setting), state) := by
    have seen : (Script.peek 0).run scene.setting rules state =
        (state.peek scene.setting 0, state) := rfl
    rw [operatorName, run_bind, seen, Level.nameIn]
    generalize (state.peek scene.setting 0).kind = kind
    cases kind
    case backtick => dsimp only; split <;> rfl
    all_goals rfl
  rw [operatorAhead, run_bind, named, operatorSeen]
  cases level.nameIn _ <;> rfl

instance (level : Level) : Looking (operatorAhead level) := by
  refine ⟨.andThen (.andThen (.look rfl) fun sight => ?_) fun name => ?_⟩
  · split <;> exact Looking.only
  · cases name <;> exact Looking.only

def isOperatorStart : TokenKind → Bool
  | .operator | .qualifiedOperator | .colon | .backtick => true
  | _ => false

theorem isOperatorStart_of_seen {level : Level} {operator : ChainOperator}
    (seen : operatorSeen scene level state = some operator) :
    isOperatorStart (kindAhead scene state 0) = true := by
  unfold operatorSeen Level.nameIn at seen
  split at seen <;> simp_all [isOperatorStart, kindAhead, State.peek]

/-! ### Rounds -/

variable {σ : Type} {round : σ → State → ForInStep σ × State} {wanted : TokenKind}

theorem iterate_holds (invariant : σ → State → Prop) (step : ∀ value state, invariant value state →
      invariant (round value state).1.value (round value state).2) (bound : Nat) (value : σ)
    (state : State) (start : invariant value state) :
    invariant (iterate round bound value state).1 (iterate round bound value state).2 := by
  induction bound generalizing value state with
  | zero => exact start
  | succ bound ih =>
    have once := step value state start
    rw [iterate]
    cases went : round value state with
    | mk outcome after =>
      rw [went] at once
      cases outcome with
      | done value => exact once
      | yield value => exact ih value after once

theorem iterate_keeps (invariant : State → Prop)
    (step : ∀ value state, invariant state → invariant (round value state).2) (bound : Nat)
    (value : σ) (state : State) (start : invariant state) :
    invariant (iterate round bound value state).2 :=
  iterate_holds _ step bound value state start

theorem loop_keeps {start : σ} {round : σ → Script (ForInStep σ)} (invariant : State → Prop)
    (step : ∀ value inner, invariant inner →
      invariant ((round value).run scene.setting rules inner).2) (holds : invariant state) :
    invariant ((Script.loop start round).run scene.setting rules state).2 :=
  iterate_keeps invariant step scene.setting.rounds start state holds

/-- A loop ends before its bound if every further round takes a token and there are too few. -/
theorem iterate_ends_or (invariant post : σ → State → Prop)
    (step : ∀ value state, invariant value state →
      (∃ last after, round value state = (.done last, after) ∧ post last after) ∨
        ∃ next after, round value state = (.yield next, after) ∧
          invariant next after ∧ after.ahead.length < state.ahead.length) (bound : Nat)
    (value : σ) (state : State) (start : invariant value state) :
    post (iterate round bound value state).1 (iterate round bound value state).2 ∨
      bound ≤ state.ahead.length ∧
        invariant (iterate round bound value state).1 (iterate round bound value state).2 := by
  induction bound generalizing value state with
  | zero => exact .inr ⟨Nat.zero_le _, start⟩
  | succ bound ih =>
    rw [iterate]
    rcases step value state start with
      ⟨last, after, went, holds⟩ | ⟨next, after, went, keeps, shorter⟩
    · rw [went]
      exact .inl holds
    · rw [went]
      exact (ih next after keeps).imp_right
        (And.imp_left fun few => Nat.lt_of_le_of_lt few shorter)

theorem iterate_ends (invariant post : σ → State → Prop)
    (step : ∀ value state, invariant value state →
      (∃ last after, round value state = (.done last, after) ∧ post last after) ∨
        ∃ next after, round value state = (.yield next, after) ∧
          invariant next after ∧ after.ahead.length < state.ahead.length) (bound : Nat)
    (value : σ) (state : State) (start : invariant value state)
    (enough : state.ahead.length < bound) :
    post (iterate round bound value state).1 (iterate round bound value state).2 :=
  (iterate_ends_or invariant post step bound value state start).resolve_right
    fun few => Nat.not_lt_of_le few.1 enough

/-! ### Words -/

theorem run_eat_of_sees (seen : kindAhead scene state 0 = wanted) :
    (eat wanted).run scene.setting rules state = (true, state.bump scene.setting) := by
  rw [run_look, show ((sees wanted).run scene.setting rules state).1 =
    true from decide_eq_true seen]
  rfl

theorem run_eat_of_not_sees (other : kindAhead scene state 0 ≠ wanted) :
    (eat wanted).run scene.setting rules state = (false, state) := by
  rw [run_look, show ((sees wanted).run scene.setting rules state).1 =
    false from decide_eq_false other]
  rfl

theorem run_expect_of_sees (seen : kindAhead scene state 0 = wanted) :
    (expect wanted).run scene.setting rules state =
      (true, state.bump scene.setting) := by
  rw [run_bind, run_eat_of_sees seen]
  rfl

theorem run_expect_of_not_sees (other : kindAhead scene state 0 ≠ wanted) :
    (expect wanted).run scene.setting rules state =
      (false, ((missing [wanted]).run scene.setting rules state).2) := by
  rw [run_bind, run_eat_of_not_sees other]
  rfl

end Offside.Grammar
