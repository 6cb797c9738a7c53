import Offside.Proofs.Drawing

/-!
# Nodes that stay open

Taking a token takes the trivia in front of it as well, and trivia at fault
gets a node of its own.  Whatever a script does, the nodes that are open around
it stay open, and what has been reported stays reported.
-/

namespace Offside.Grammar

open Offside.Tree (forestNodes)
open Offside.Tree.Direct (rowOf)

/-! ### Taking tokens -/

def Lexeme.tokens (lexeme : Lexeme) : List Token :=
  lexeme.trivia ++ [lexeme.token]

variable {token : Token}

section Taking

variable {state : State}

theorem takeTrivium_of_none (setting : Setting) (state : State)
    (harmless : State.triviaCause? token.kind = none) :
    state.takeTrivium setting token = state.take token := by
  rw [State.takeTrivium, harmless]

theorem takeTrivium_of_some {cause : Cause} (setting : Setting) (state : State)
    (faulty : State.triviaCause? token.kind = some cause) :
    ∃ diagnostic, diagnostic.cause = cause ∧
      diagnostic.recovery = (state.current setting).span.start ∧
      state.takeTrivium setting token =
        (((state.mark .start).take token).mark (.finish .error (some diagnostic))) := by
  rw [State.takeTrivium, faulty]
  exact ⟨_, rfl, rfl, rfl⟩

theorem foldl_takeTrivium_eq (setting : Setting) (trivia : List Token) :
    ∃ trail reached, trivia.foldl (State.takeTrivium setting) state =
      { state with trail, reached } := by
  induction trivia generalizing state with
  | nil => exact ⟨state.trail, state.reached, rfl⟩
  | cons token rest ih =>
    obtain ⟨trail, reached, done⟩ :
        ∃ trail reached,
          rest.foldl (State.takeTrivium setting) (state.takeTrivium setting token) =
            { state.takeTrivium setting token with trail, reached } := ih
    refine ⟨trail, reached, ?_⟩
    rw [List.foldl_cons, done, State.takeTrivium]
    split <;> rfl

variable {lexeme : Lexeme} {rest : List Lexeme}

theorem takeTrivia_of_cons (setting : Setting) {state : State}
    (found : state.ahead = lexeme :: rest) :
    state.takeTrivia setting =
      { lexeme.trivia.foldl (State.takeTrivium setting) state with
        ahead := { lexeme with trivia := [] } :: rest } := by
  rw [State.takeTrivia, found]

theorem bump_of_cons (setting : Setting) {state : State} (found : state.ahead = lexeme :: rest) :
    state.bump setting =
      { (state.takeTrivia setting).take lexeme.token with
        ahead := rest
        position := (state.takeTrivia setting).position + 1
        openBrackets :=
          State.bracketsAfter lexeme.token.kind (state.takeTrivia setting).openBrackets } := by
  rw [State.bump, takeTrivia_of_cons setting found]

theorem bare_takeTrivia {setting : Setting}
    (ahead : (state.takeTrivia setting).ahead = lexeme :: rest) : lexeme.trivia = [] := by
  rw [State.takeTrivia] at ahead
  split at ahead
  · next nothing =>
      rw [nothing] at ahead
      cases ahead
  · cases ahead
    rfl

theorem bump_of_ahead_nil (setting : Setting) (nothing : state.ahead = []) :
    state.bump setting = state := by
  rw [State.bump, State.takeTrivia, nothing]
  rw [nothing]

end Taking

variable {scene : Scene}

/-! ### What every script keeps -/

/-- A node is open around the same nodes as before, and what was reported is still there. -/
structure Retains (scene : Scene) (before after : State) : Prop where
  opened : stack scene after ≠ []
  below : (stack scene after).tail = (stack scene before).tail
  faulty : Faulty scene before → Faulty scene after

variable {first second third : State}

theorem Retains.refl (opened : stack scene first ≠ []) : Retains scene first first :=
  ⟨opened, rfl, id⟩

theorem Retains.trans (left : Retains scene first second) (right : Retains scene second third) :
    Retains scene first third :=
  ⟨right.opened, right.below.trans left.below, right.faulty ∘ left.faulty⟩

theorem faulty_of_trail (trail : second.trail = first.trail) (faulty : Faulty scene first) :
    Faulty scene second := by
  rw [Faulty, shown, stack_of_trail trail]
  exact faulty

theorem Retains.of_trail (retains : Retains scene first second)
    (trail : third.trail = second.trail) : Retains scene first third where
  opened := by rw [stack_of_trail trail]; exact retains.opened
  below := by rw [stack_of_trail trail]; exact retains.below
  faulty faulty := faulty_of_trail trail (retains.faulty faulty)

theorem retains_of_trail (opened : stack scene first ≠ [])
    (trail : second.trail = first.trail) : Retains scene first second :=
  (Retains.refl opened).of_trail trail

theorem faulty_start : Faulty scene (first.mark .start) ↔ Faulty scene first := by
  rw [Faulty, shown_start, Faulty]

theorem kids_take {rest : List Token} (opened : stack scene first ≠ [])
    (left : (drawn scene first).tokens = token :: rest) (given : Token) :
    kids scene (first.take given) = .leaf token :: kids scene first ∧
      (drawn scene (first.take given)).tokens = rest ∧
      forestNodes (shown scene (first.take given)) = forestNodes (shown scene first) := by
  obtain ⟨frame, below, stacked⟩ := List.exists_cons_of_ne_nil opened
  have grown := stack_take stacked left given
  refine ⟨?_, ?_, ?_⟩
  · rw [kids_of_stack grown, kids_of_stack stacked]
  · rw [drawn_take, Tree.Direct.State.step_token stacked left]
  · simp [shown, grown, stacked, rowOf, forestNodes, Tree.nodes]

theorem retains_take (opened : stack scene first ≠ []) (token : Token) :
    Retains scene first (first.take token) := by
  obtain ⟨frame, below, stacked⟩ := List.exists_cons_of_ne_nil opened
  cases left : (drawn scene first).tokens with
  | nil =>
    -- A trail that has run out of tokens stands still.
    have still : drawn scene (first.take token) = drawn scene first := by
      rw [drawn_take, Tree.Direct.State.step, left]
    have same : stack scene (first.take token) = stack scene first := by
      rw [stack, still, stack]
    exact ⟨by rw [same]; exact opened, by rw [same],
      fun faulty => by rw [Faulty, shown, same]; exact faulty⟩
  | cons next rest =>
    obtain ⟨-, -, nodes⟩ := kids_take opened left token
    have grown := stack_take stacked left token
    exact ⟨by rw [grown]; exact List.cons_ne_nil _ _, by rw [grown, stacked]; rfl,
      fun faulty => by rw [Faulty, nodes]; exact faulty⟩

section Enclosed

variable (inside : Retains scene (first.mark .start) second)
include inside

theorem Retains.stack_inside (opened : stack scene first ≠ []) :
    ∃ frame parent below, stack scene second = frame :: parent :: below ∧
      stack scene first = parent :: below := by
  obtain ⟨frame, rest, stacked⟩ := List.exists_cons_of_ne_nil inside.opened
  obtain ⟨parent, below, outer⟩ := List.exists_cons_of_ne_nil opened
  have same : rest = parent :: below := by
    have below_ := inside.below
    rw [stacked, stack_start, outer] at below_
    exact below_
  exact ⟨frame, parent, below, by rw [stacked, same], outer⟩

theorem Retains.finish (opened : stack scene first ≠ []) (kind : NodeKind)
    (error : Option Diagnostic) : Retains scene first (second.mark (.finish kind error)) := by
  obtain ⟨frame, parent, below, stacked, outer⟩ := inside.stack_inside opened
  refine ⟨?_, ?_, ?_⟩
  · rw [stack_finish kind error stacked]
    exact List.cons_ne_nil _ _
  · rw [stack_finish kind error stacked, outer]
    rfl
  · intro faulty
    exact faulty_finish kind error stacked (inside.faulty (faulty_start.mpr faulty))

theorem Retains.faulty_of_finish (opened : stack scene first ≠ []) (kind : NodeKind)
    (diagnostic : Diagnostic) : Faulty scene (second.mark (.finish kind (some diagnostic))) := by
  obtain ⟨frame, parent, below, stacked, -⟩ := inside.stack_inside opened
  exact faulty_finish_some kind diagnostic stacked

theorem Retains.abandon (opened : stack scene first ≠ []) :
    Retains scene first (second.mark .abandon) := by
  obtain ⟨frame, parent, below, stacked, outer⟩ := inside.stack_inside opened
  refine ⟨?_, ?_, ?_⟩
  · rw [stack_abandon stacked]
    exact List.cons_ne_nil _ _
  · rw [stack_abandon stacked, outer]
    rfl
  · intro faulty
    rw [Faulty, shown_abandon stacked]
    exact inside.faulty (faulty_start.mpr faulty)

end Enclosed

theorem Retains.stack_around (inside : Retains scene (first.mark (.precede 0)) second)
    (opened : stack scene first ≠ []) :
    ∃ top frame below, stack scene second =
        top :: { frame with children := frame.children.drop 1 } :: below ∧
      stack scene first = frame :: below := by
  obtain ⟨frame, below, outer⟩ := List.exists_cons_of_ne_nil opened
  obtain ⟨top, rest, stacked⟩ := List.exists_cons_of_ne_nil inside.opened
  have same := inside.below
  rw [stacked, stack_precede outer] at same
  exact ⟨top, frame, below, stacked.trans (congrArg _ same), outer⟩

theorem Retains.wrap (inside : Retains scene (first.mark (.precede 0)) second)
    (opened : stack scene first ≠ []) (kind : NodeKind) (error : Option Diagnostic) :
    Retains scene first (second.mark (.finish kind error)) ∧
      (error.isSome = true → Faulty scene (second.mark (.finish kind error))) := by
  obtain ⟨top, frame, below, stacked, outer⟩ := inside.stack_around opened
  refine ⟨⟨?_, ?_, ?_⟩, ?_⟩
  · rw [stack_finish kind error stacked]
    exact List.cons_ne_nil _ _
  · rw [stack_finish kind error stacked, outer]
    rfl
  · intro faulty
    refine faulty_finish kind error stacked (inside.faulty ?_)
    rw [Faulty, shown_precede opened]
    exact faulty
  · intro reported
    obtain ⟨diagnostic, rfl⟩ := Option.isSome_iff_exists.mp reported
    exact faulty_finish_some kind diagnostic stacked

theorem retains_start_take (token : Token) :
    Retains scene (first.mark .start) ((first.mark .start).take token) :=
  retains_take (opened_start first) token

theorem retains_takeTrivium (opened : stack scene first ≠ []) (setting : Setting)
    (token : Token) : Retains scene first (first.takeTrivium setting token) := by
  cases faulty : State.triviaCause? token.kind with
  | none =>
    rw [takeTrivium_of_none setting first faulty]
    exact retains_take opened token
  | some cause =>
    obtain ⟨diagnostic, -, -, taken⟩ := takeTrivium_of_some setting first faulty
    rw [taken]
    exact (retains_start_take token).finish opened .error _

theorem retains_foldl_takeTrivium (setting : Setting) (trivia : List Token)
    (opened : stack scene first ≠ []) :
    Retains scene first (trivia.foldl (State.takeTrivium setting) first) := by
  induction trivia generalizing first with
  | nil => exact .refl opened
  | cons token rest ih =>
    have once := retains_takeTrivium opened setting token
    exact once.trans (ih once.opened)

theorem retains_takeTrivia (opened : stack scene first ≠ []) (setting : Setting) :
    Retains scene first (first.takeTrivia setting) := by
  rw [State.takeTrivia]
  split
  · exact .refl opened
  · exact (retains_foldl_takeTrivium setting _ opened).of_trail rfl

theorem retains_bump (opened : stack scene first ≠ []) (setting : Setting) :
    Retains scene first (first.bump setting) := by
  have trivia := retains_takeTrivia opened setting
  rw [State.bump]
  split
  · exact trivia
  · next lexeme _ _ =>
      exact trivia.trans ((retains_take trivia.opened lexeme.token).of_trail rfl)

theorem retains_report (opened : stack scene first ≠ []) (setting : Setting) (cause : Cause)
    (expected : List TokenKind) : Retains scene first (first.report setting cause expected) := by
  rw [State.report]
  split
  · exact .refl opened
  · exact ((Retains.refl (opened_start first)).finish opened .error _).of_trail rfl

theorem faulty_report (opened : stack scene first ≠ []) (setting : Setting) (cause : Cause)
    (expected : List TokenKind) (silent : first.lastReport = none) :
    Faulty scene (first.report setting cause expected) := by
  have fresh : (decide (cause = .syntactic) &&
      decide (first.lastReport = some first.reached)) = false := by
    simp [silent]
  rw [State.report, fresh]
  exact faulty_of_trail rfl ((Retains.refl (opened_start first)).faulty_of_finish opened .error _)

theorem retains_declare (opened : stack scene first ≠ []) (setting : Setting)
    (space : Namespace) (operator : String) (fixity : Fixity) :
    Retains scene first (first.declare setting space operator fixity).2 := by
  rw [State.declare]
  split <;> exact retains_of_trail opened rfl

theorem iterate_retains {σ : Type} {round : σ → State → ForInStep σ × State}
    (once : ∀ value state, stack scene state ≠ [] → Retains scene state (round value state).2)
    (bound : Nat) (value : σ) (state : State) (opened : stack scene state ≠ []) :
    Retains scene state (iterate round bound value state).2 := by
  induction bound generalizing value state with
  | zero => exact .refl opened
  | succ bound ih =>
    have kept := once value state opened
    rw [iterate]
    split
    · next ran =>
        rw [ran] at kept
        exact kept
    · next ran =>
        rw [ran] at kept
        exact kept.trans (ih _ _ kept.opened)

theorem Script.retains (setting : Setting) {rules : Rule → State → Bool × State}
    (kept : ∀ rule state, stack scene state ≠ [] → Retains scene state (rules rule state).2)
    {α : Type} (script : Script α) (state : State) (opened : stack scene state ≠ []) :
    Retains scene state (script.run setting rules state).2 := by
  induction script generalizing state with
  | result | peek | search | position | insideBrackets | sighting | lookup | reportsUnknown =>
    exact .refl opened
  | andThen body next ihBody ihNext =>
    have once := ihBody state opened
    exact once.trans (ihNext _ _ once.opened)
  | bump => exact retains_bump opened setting
  | report cause expected => exact retains_report opened setting cause expected
  | fault cause expected body ih =>
    have trivia := retains_takeTrivia opened setting
    have inside := ih _ (opened_start (state.takeTrivia setting))
    exact trivia.trans (inside.finish trivia.opened .error _)
  | blame cause found =>
    exact ((Retains.refl (opened_precede opened)).wrap opened .error _).1
  | node body ih =>
    have trivia := retains_takeTrivia opened setting
    have inside := ih _ (opened_start (state.takeTrivia setting))
    rw [Script.run]
    split
    · next ran =>
        rw [ran] at inside
        exact trivia.trans (inside.finish trivia.opened _ none)
    · next ran =>
        rw [ran] at inside
        exact trivia.trans (inside.abandon trivia.opened)
  | wrap kind body ih =>
    exact ((ih _ (opened_precede opened)).wrap opened kind none).1
  | deepen =>
    rw [Script.run]
    split
    · exact retains_of_trail opened rfl
    · exact .refl opened
  | loop start round ih => exact iterate_retains ih setting.rounds start state opened
  | call rule => exact kept rule state opened
  | declare space operator fixity => exact retains_declare opened setting space operator fixity
  | leave | forgetBrackets | poll => exact retains_of_trail opened rfl

theorem runRule_retains (setting : Setting) (scripts : Rule → Script Bool) (bound : Nat)
    (rule : Rule) (state : State) (opened : stack scene state ≠ []) :
    Retains scene state (runRule setting scripts bound rule state).2 := by
  induction bound generalizing rule state with
  | zero => exact retains_report opened setting .syntactic []
  | succ bound ih => exact (scripts rule).retains setting ih state opened

end Offside.Grammar
