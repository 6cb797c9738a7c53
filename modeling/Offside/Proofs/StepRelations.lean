import Offside.Proofs.Conduct

/-!
# What holds of every step

A script is made of a few steps, and so is all that the rules do.  So what
relates the states before and after each single step relates those before and
after every run, however deep the rules call each other.
-/

namespace Offside.Grammar

/-- A relation between states that holds of every step, and of steps in a row. -/
structure RelatesSteps (setting : Setting) (related : State → State → Prop) : Prop where
  refl : ∀ state, related state state
  trans : ∀ {first second third : State},
    related first second → related second third → related first third
  takeTrivia : ∀ state, related state (state.takeTrivia setting)
  bump : ∀ state, related state (state.bump setting)
  mark : ∀ mark state, related state (state.mark mark)
  report : ∀ cause expected state, related state (state.report setting cause expected)
  declare : ∀ space operator fixity state,
    related state (state.declare setting space operator fixity).2
  deepen : ∀ state : State, state.depth < maxDepth →
    related state { state with depth := state.depth + 1 }
  leave : ∀ state : State, related state { state with depth := state.depth - 1 }
  forget : ∀ openBrackets (state : State), related state { state with openBrackets }
  poll : ∀ polls (state : State), related state { state with polls }

namespace RelatesSteps

variable {setting : Setting} {related : State → State → Prop} (steps : RelatesSteps setting related)
include steps

theorem run {rules : Rule → State → Bool × State}
    (calls : ∀ rule state, related state (rules rule state).2) {α : Type} (script : Script α)
    (state : State) : related state (script.run setting rules state).2 := by
  have enters (state : State) : related state ((state.takeTrivia setting).mark .start) :=
    steps.trans (steps.takeTrivia state) (steps.mark .start _)
  induction script generalizing state with
  | result | peek | search | position | insideBrackets | sighting | lookup | reportsUnknown =>
    exact steps.refl state
  | andThen _ _ ihFirst ihNext => exact steps.trans (ihFirst state) (ihNext _ _)
  | bump => exact steps.bump state
  | report cause expected => exact steps.report cause expected state
  | fault _ _ _ ih => exact steps.trans (steps.trans (enters state) (ih _)) (steps.mark _ _)
  | blame => exact steps.trans (steps.mark _ state) (steps.mark _ _)
  | node _ ih =>
    have inside := steps.trans (enters state) (ih _)
    rw [Script.run]
    split
    · next ran =>
        rw [ran] at inside
        exact steps.trans inside (steps.mark _ _)
    · next ran =>
        rw [ran] at inside
        exact steps.trans inside (steps.mark _ _)
  | wrap _ _ ih =>
    exact steps.trans (steps.trans (steps.mark _ state) (ih _)) (steps.mark _ _)
  | deepen =>
    rw [Script.run]
    split
    · next room => exact steps.deepen state room
    · exact steps.refl state
  | leave => exact steps.leave state
  | loop start _ ih =>
    exact iterate_keeps _
      (fun value inner kept => steps.trans kept (ih value inner)) _ start state
      (steps.refl state)
  | call rule => exact calls rule state
  | declare space operator fixity => exact steps.declare space operator fixity state
  | forgetBrackets => exact steps.forget 0 state
  | poll => exact steps.poll _ state

theorem runRule (bound : Nat) (rule : Rule) (state : State) :
    related state (runRule setting scriptOf bound rule state).2 := by
  induction bound generalizing rule state with
  | zero => exact steps.report .syntactic [] state
  | succ bound ih => exact steps.run ih _ state

theorem execute {α : Type} (script : Script α) (start : State) :
    related start (script.execute setting start).2 :=
  steps.run (steps.runRule _) script start

end RelatesSteps

end Offside.Grammar
