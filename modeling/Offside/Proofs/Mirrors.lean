import Offside.Proofs.Twins

/-!
# Scripts that treat twins alike

A script is mirrored if it gives the same answer in twin states and leaves
twins behind.  That follows from how the script is put together, so it is a
class, and the way a script is put together is followed by instances.  What a
script sees of the text is the same in twin states; only what is found for a
diagnostic may differ.

Where a script opens a node around the one finished before it, more is needed:
the answer of the script in front must tell that it has just finished a node in
both runs.  Where a script opens a node first, less is needed: the states need
only be twins once the trivia ahead has been taken.
-/

namespace Offside.Grammar

variable {α β σ : Type}

namespace Pair

variable (pair : Pair)

/--
The outcomes of two runs agree: the answers are the same, the states are twins,
and where the answer says so both runs have just finished a node.
-/
structure Agree (finishes : α → Prop) (first second : α × State) : Prop where
  answer : first.1 = second.1
  twins : pair.Twins first.2 second.2
  tips : finishes first.1 → pair.Tips first.2 second.2

/-- How the two runs run the rules, which finish a node if they say so. -/
structure Rules where
  left : Rule → State → Bool × State
  right : Rule → State → Bool × State
  agree : ∀ rule one two, pair.Twins one two →
    pair.Agree (· = true) (left rule one) (right rule two)

end Pair

variable {pair : Pair} {rules : pair.Rules} {one two : State} {finishes further : α → Prop}

def Pair.Rules.Agrees (rules : pair.Rules) (finishes : α → Prop) (script : Script α)
    (one two : State) : Prop :=
  pair.Agree finishes (script.run pair.left.setting rules.left one)
    (script.run pair.right.setting rules.right two)

/-- The script gives the same answer in twin states and leaves twins behind. -/
class Mirrored (rules : pair.Rules) (script : Script α) : Prop where
  agrees : ∀ {one two}, pair.Twins one two → rules.Agrees (fun _ => False) script one two

/-- The script is mirrored, and it has just finished a node if it says so. -/
class Finishing (rules : pair.Rules) (script : Script Bool) : Prop where
  agrees : ∀ {one two}, pair.Twins one two → rules.Agrees (· = true) script one two

/--
The script opens a node before it does anything else, so that the trivia ahead
has been taken before something can be reported.
-/
class NodeFirst (rules : pair.Rules) (script : Script α) : Prop where
  agrees : ∀ {one two},
    pair.Twins (one.takeTrivia pair.left.setting) (two.takeTrivia pair.right.setting) →
      rules.Agrees (fun _ => False) script one two

variable {next : α → Script β} {script : Script α} {body item : Script Unit} {start : σ}
  {round : σ → Script (ForInStep σ)} {test : Script Bool}

namespace Pair.Rules.Agrees

variable {script : Script α}

theorem mono (agrees : rules.Agrees finishes script one two)
    (weaker : ∀ answer, further answer → finishes answer) : rules.Agrees further script one two :=
  ⟨agrees.answer, agrees.twins, fun claimed => agrees.tips (weaker _ claimed)⟩

theorem bind {finishes : β → Prop} {tells : α → Prop} (first : rules.Agrees tells script one two)
    (later : ∀ value one two, pair.Twins one two → (tells value → pair.Tips one two) →
      rules.Agrees finishes (next value) one two) :
    rules.Agrees finishes (script >>= next) one two := by
  have onward := later _ _ _ first.twins first.tips
  rw [first.answer] at onward
  rw [Agrees, run_bind, first.answer]
  exact onward

theorem result {value : α} (twins : pair.Twins one two)
    (tips : finishes value → pair.Tips one two) : rules.Agrees finishes (pure value) one two :=
  ⟨rfl, twins, tips⟩

theorem looks [Mirrored rules script] [looking : Looking script] {given : Prop}
    (twins : pair.Twins one two)
    (tips : given → pair.Tips one two) : rules.Agrees (fun _ => given) script one two where
  answer := (Mirrored.agrees twins).answer
  twins := (Mirrored.agrees twins).twins
  tips holds := by
    rw [looking.only.unmoved, looking.only.unmoved]
    exact tips holds

end Pair.Rules.Agrees

theorem Mirrored.of_agrees
    (agrees : ∀ {one two}, pair.Twins one two → rules.Agrees finishes script one two) :
    Mirrored rules script :=
  ⟨fun twins => (agrees twins).mono fun _ => False.elim⟩

/-! ### Sequences and choices -/

instance (priority := low) {script : Script Bool} [finishing : Finishing rules script] :
    Mirrored rules script :=
  .of_agrees finishing.agrees

instance (value : α) : Mirrored rules (pure value) :=
  ⟨fun twins => .result twins False.elim⟩

instance : Finishing rules (pure false) :=
  ⟨fun twins => .result twins nofun⟩

instance [first : Mirrored rules script] [later : ∀ value, Mirrored rules (next value)] :
    Mirrored rules (script >>= next) :=
  ⟨fun twins => (first.agrees twins).bind fun value _ _ twins _ => (later value).agrees twins⟩

instance {next : α → Script Bool} [first : Mirrored rules script]
    [later : ∀ value, Finishing rules (next value)] : Finishing rules (script >>= next) :=
  ⟨fun twins => (first.agrees twins).bind fun value _ _ twins _ => (later value).agrees twins⟩

instance {script : Script Unit} {next : Unit → Script β} [first : Mirrored rules script]
    [later : Mirrored rules (next ())] : Mirrored rules (script >>= next) :=
  ⟨fun twins => (first.agrees twins).bind fun _ _ _ twins _ => later.agrees twins⟩

instance {script : Script Unit} {next : Unit → Script Bool} [first : Mirrored rules script]
    [later : Finishing rules (next ())] : Finishing rules (script >>= next) :=
  ⟨fun twins => (first.agrees twins).bind fun _ _ _ twins _ => later.agrees twins⟩

theorem Mirrored.andThen [Mirrored rules script] (later : ∀ value, Mirrored rules (next value)) :
    Mirrored rules (script >>= next) :=
  inferInstance

theorem Finishing.andThen {next : α → Script Bool} [Mirrored rules script]
    (later : ∀ value, Finishing rules (next value)) : Finishing rules (script >>= next) :=
  inferInstance

instance {condition : Prop} [Decidable condition] {yes no : Script α}
    [first : Mirrored rules yes] [second : Mirrored rules no] :
    Mirrored rules (if condition then yes else no) := by
  split
  · exact first
  · exact second

instance {condition : Prop} [Decidable condition] {yes no : Script Bool}
    [first : Finishing rules yes] [second : Finishing rules no] :
    Finishing rules (if condition then yes else no) := by
  split
  · exact first
  · exact second

instance {test : Script Bool} {yes no : Script α} [first : Mirrored rules test]
    [second : Mirrored rules yes] [third : Mirrored rules no] :
    Mirrored rules (test >>= fun answer => if answer = true then yes else no) :=
  .andThen fun _ => inferInstance

instance {test : Script Bool} {yes no : Script Bool} [first : Mirrored rules test]
    [second : Finishing rules yes] [third : Finishing rules no] :
    Finishing rules (test >>= fun answer => if answer = true then yes else no) :=
  .andThen fun _ => inferInstance

/-! ### Questions -/

instance (index : Nat) : Mirrored rules (Script.peek index) :=
  ⟨fun twins => ⟨twins.peek index, twins, False.elim⟩⟩

instance (wanted : Sight → Bool) (stops : List TokenKind) :
    Mirrored rules (Script.search wanted stops) :=
  ⟨fun twins => ⟨Matched.searchFrom twins.ahead wanted stops 0, twins, False.elim⟩⟩

instance : Mirrored rules Script.position :=
  ⟨fun twins => ⟨congrArg Bearings.position twins.bearings, twins, False.elim⟩⟩

instance : Mirrored rules Script.insideBrackets :=
  ⟨fun twins => ⟨congrArg (fun bearings : Bearings => decide (0 < bearings.openBrackets))
    twins.bearings, twins, False.elim⟩⟩

instance (space : Namespace) (operator : String) : Mirrored rules (Script.lookup space operator) :=
  ⟨fun twins => ⟨congrArg (fun bearings : Bearings => bearings.operators.get? space operator)
    twins.bearings, twins, False.elim⟩⟩

instance : Mirrored rules Script.reportsUnknown :=
  ⟨fun twins => ⟨pair.alike.reportsUnknown, twins, False.elim⟩⟩

/-! ### Steps -/

instance : Mirrored rules Script.bump :=
  ⟨fun twins => ⟨rfl, twins.bump, False.elim⟩⟩

instance (cause : Cause) (expected : List TokenKind) :
    Mirrored rules (Script.report cause expected) :=
  ⟨fun twins => ⟨rfl, twins.report cause expected, False.elim⟩⟩

instance : Mirrored rules Script.forgetBrackets := by
  refine ⟨fun {one two} twins => ⟨rfl, ?_, False.elim⟩⟩
  exact twins.of_eq ⟨rfl, rfl, rfl, rfl⟩ ⟨rfl, rfl, rfl, rfl⟩
    (congrArg (fun bearings : Bearings => { bearings with openBrackets := 0 })
      twins.bearings)

instance : Mirrored rules Script.poll := by
  refine ⟨fun {one two} twins => ⟨?_, ?_, False.elim⟩⟩
  · show pair.left.setting.isCancelled one.polls = pair.right.setting.isCancelled two.polls
    rw [pair.alike.isCancelled,
      show one.polls = two.polls from congrArg Bearings.polls twins.bearings]
  · exact twins.of_eq ⟨rfl, rfl, rfl, rfl⟩ ⟨rfl, rfl, rfl, rfl⟩
      (congrArg (fun bearings : Bearings => { bearings with polls := bearings.polls + 1 })
        twins.bearings)

instance (space : Namespace) (operator : String) (fixity : Fixity) :
    Mirrored rules (Script.declare space operator fixity) := by
  refine ⟨fun {one two} twins => ?_⟩
  have declared : one.declared = two.declared :=
    congrArg Bearings.declared twins.bearings
  show pair.Agree _ (one.declare pair.left.setting space operator fixity)
    (two.declare pair.right.setting space operator fixity)
  rw [State.declare, State.declare, declared]
  split
  · exact ⟨rfl, twins, False.elim⟩
  · refine ⟨rfl, twins.of_eq ⟨rfl, rfl, rfl, rfl⟩ ⟨rfl, rfl, rfl, rfl⟩ ?_, False.elim⟩
    rw [pair.alike.declaresInOrder]
    exact congrArg (fun bearings : Bearings => { bearings with
        declared := two.declared.insert space operator fixity
        operators :=
          if pair.right.setting.declaresInOrder then
            bearings.operators.insert space operator fixity
          else bearings.operators })
      twins.bearings

instance (rule : Rule) : Finishing rules (Script.call rule) :=
  ⟨fun twins => rules.agree rule _ _ twins⟩

/-! ### Nodes -/

theorem Pair.Rules.Agrees.node {body : Script (Option NodeKind)} [Mirrored rules body]
    (ready : pair.Twins (one.takeTrivia pair.left.setting) (two.takeTrivia pair.right.setting)) :
    rules.Agrees (· = true) (Script.node body) one two := by
  have inside : rules.Agrees (fun _ => False) body _ _ := Mirrored.agrees ready.start
  rw [Agrees] at inside ⊢
  rw [Script.run, Script.run]
  generalize body.run pair.left.setting rules.left _ = first at inside ⊢
  generalize body.run pair.right.setting rules.right _ = second at inside ⊢
  obtain ⟨answer, after⟩ := first
  obtain ⟨other, later⟩ := second
  obtain ⟨rfl, ended, -⟩ := inside
  cases answer with
  | none => exact ⟨rfl, ended.abandon, nofun⟩
  | some kind => exact ⟨rfl, (ended.finish kind rfl).1, fun _ => (ended.finish kind rfl).2⟩

theorem Pair.Rules.Agrees.fault [Mirrored rules body]
    (ready : pair.Twins (one.takeTrivia pair.left.setting) (two.takeTrivia pair.right.setting))
    (cause : Cause) (expected : List TokenKind) :
    rules.Agrees (fun _ => True) (Script.fault cause expected body) one two := by
  have inside : rules.Agrees (fun _ => False) body _ _ := Mirrored.agrees ready.start
  exact ⟨rfl, (inside.twins.finish .error (by rfl)).1,
    fun _ => (inside.twins.finish .error (by rfl)).2⟩

theorem Pair.Rules.Agrees.wrap [Mirrored rules body] (twins : pair.Twins one two)
    (tips : pair.Tips one two) (kind : NodeKind) :
    rules.Agrees (fun _ => True) (Script.wrap kind body) one two := by
  have inside : rules.Agrees (fun _ => False) body _ _ :=
    Mirrored.agrees (twins.precede tips)
  obtain ⟨ended, tips⟩ := inside.twins.finish kind rfl
  exact ⟨rfl, ended, fun _ => tips⟩

instance {body : Script (Option NodeKind)} [Mirrored rules body] :
    Finishing rules (Script.node body) :=
  ⟨fun twins => .node twins.takeTrivia⟩

instance {body : Script (Option NodeKind)} [Mirrored rules body] :
    NodeFirst rules (Script.node body) :=
  ⟨fun ready => (Pair.Rules.Agrees.node ready).mono fun _ => False.elim⟩

instance (priority := low) [first : NodeFirst rules script] : Mirrored rules script :=
  ⟨fun twins => first.agrees twins.takeTrivia⟩

instance (cause : Cause) (expected : List TokenKind) [Mirrored rules body] :
    Mirrored rules (Script.fault cause expected body) :=
  .of_agrees fun twins => .fault twins.takeTrivia cause expected

/-! ### Levels -/

instance : Mirrored rules Script.deepen := by
  refine ⟨fun {one two} twins => ?_⟩
  have depth : one.depth = two.depth := congrArg Bearings.depth twins.bearings
  rw [Pair.Rules.Agrees, Script.run, Script.run, depth]
  split
  · refine ⟨rfl, twins.of_eq ⟨rfl, rfl, rfl, rfl⟩ ⟨rfl, rfl, rfl, rfl⟩ ?_, False.elim⟩
    exact congrArg (fun bearings : Bearings => { bearings with depth := two.depth + 1 })
      twins.bearings
  · exact ⟨rfl, twins, False.elim⟩

theorem Pair.Rules.Agrees.leave {given : Prop} (twins : pair.Twins one two)
    (tips : given → pair.Tips one two) : rules.Agrees (fun _ => given) Script.leave one two where
  answer := rfl
  twins := twins.of_eq ⟨rfl, rfl, rfl, rfl⟩ ⟨rfl, rfl, rfl, rfl⟩
    (congrArg (fun bearings : Bearings => { bearings with depth := bearings.depth - 1 })
      twins.bearings)
  tips := tips

instance : Mirrored rules Script.leave :=
  ⟨fun twins => .leave twins False.elim⟩

instance {script : Script Bool} [first : Finishing rules script] :
    Finishing rules (do
      let finished ← script
      Script.leave
      pure finished) :=
  ⟨fun twins => (first.agrees twins).bind fun _ _ _ twins tips =>
    (Pair.Rules.Agrees.leave twins tips).bind fun _ _ _ twins tips => .result twins tips⟩

/-! ### Loops -/

theorem Pair.Agree.iterate_succ {finishes : σ → Prop}
    {first second : σ → State → ForInStep σ × State} {bound : Nat} {value : σ}
    (once : pair.Agree (fun outcome => finishes outcome.value) (first value one)
      (second value two))
    (onward : ∀ value one two, pair.Twins one two → (finishes value → pair.Tips one two) →
      pair.Agree finishes (iterate first bound value one) (iterate second bound value two)) :
    pair.Agree finishes (iterate first (bound + 1) value one)
      (iterate second (bound + 1) value two) := by
  rw [iterate, iterate]
  generalize first value one = outcome at once ⊢
  generalize second value two = other at once ⊢
  obtain ⟨answer, after⟩ := outcome
  obtain ⟨answer, later⟩ := other
  obtain ⟨rfl, ended, still⟩ := once
  cases answer with
  | done value => exact ⟨rfl, ended, still⟩
  | yield value => exact onward value after later ended still

theorem Pair.Agree.iterate {finishes : σ → Prop} {first second : σ → State → ForInStep σ × State}
    (step : ∀ value one two, pair.Twins one two → (finishes value → pair.Tips one two) →
      pair.Agree (fun outcome => finishes outcome.value) (first value one) (second value two))
    (bound : Nat) (value : σ) (twins : pair.Twins one two)
    (tips : finishes value → pair.Tips one two) :
    pair.Agree finishes (iterate first bound value one) (iterate second bound value two) := by
  induction bound generalizing value one two with
  | zero => exact ⟨rfl, twins, tips⟩
  | succ bound ih =>
    exact .iterate_succ (step value one two twins tips)
      fun value _ _ twins tips => ih value twins tips

theorem Pair.Rules.Agrees.loop {finishes : σ → Prop}
    (step : ∀ value one two, pair.Twins one two → (finishes value → pair.Tips one two) →
      rules.Agrees (fun outcome => finishes outcome.value) (round value) one two)
    (twins : pair.Twins one two) (tips : finishes start → pair.Tips one two) :
    rules.Agrees finishes (Script.loop start round) one two := by
  rw [Agrees, Script.run, pair.alike.rounds]
  exact Pair.Agree.iterate step _ start twins tips

instance [step : ∀ value, Mirrored rules (round value)] :
    Mirrored rules (Script.loop start round) :=
  ⟨fun twins => .loop (fun value _ _ twins _ => (step value).agrees twins) twins False.elim⟩

theorem Pair.Rules.Agrees.loop_first [step : ∀ value, Mirrored rules (round value)]
    (turns : 0 < pair.left.setting.rounds)
    (first : rules.Agrees (fun _ => False) (round start) one two) :
    rules.Agrees (fun _ => False) (Script.loop start round) one two := by
  obtain ⟨bound, rounds⟩ := Nat.exists_eq_add_one_of_ne_zero (Nat.ne_of_gt turns)
  rw [Agrees, Script.run, Script.run, ← pair.alike.rounds, rounds]
  refine .iterate_succ first fun value _ _ twins _ => ?_
  refine .iterate ?_ bound value twins False.elim
  exact fun value _ _ twins _ => (step value).agrees twins

/-! ### Words -/

instance (wanted : TokenKind) : Mirrored rules (expect wanted) := by
  infer_instance

instance [first : NodeFirst rules script] : NodeFirst rules (ignore script) :=
  ⟨fun ready => (first.agrees ready).bind fun _ _ _ twins _ => .result twins False.elim⟩

theorem Mirrored.inside (own : Mirrored rules body) (kind : NodeKind) :
    Mirrored rules (inside kind body) :=
  inferInstance

instance (stops : List TokenKind) : Mirrored rules (skipTo stops) := by
  infer_instance

instance [Mirrored rules test] [Mirrored rules body] : Mirrored rules (whileSeen test body) := by
  infer_instance

set_option synthInstance.maxSize 256 in
instance [Mirrored rules item] (required : Option (List TokenKind)) :
    Mirrored rules (block item required) := by
  unfold block
  cases required with
  | none =>
    dsimp only
    infer_instance
  | some first =>
    dsimp only
    infer_instance

/-! ### Nodes around what has just been finished -/

theorem Pair.Rules.Agrees.inside [Mirrored rules body] (twins : pair.Twins one two)
    (kind : NodeKind) : rules.Agrees (fun _ => True) (inside kind body) one two := by
  have own : rules.Agrees (fun _ => False) body _ _ :=
    Mirrored.agrees twins.takeTrivia.start
  exact ⟨rfl, (own.twins.finish kind rfl).1, fun _ => (own.twins.finish kind rfl).2⟩

theorem Pair.Rules.Agrees.around [Mirrored rules body] {finished : Bool}
    (twins : pair.Twins one two) (tips : finished = true → pair.Tips one two) (kind : NodeKind) :
    rules.Agrees (fun _ => True) (around finished kind body) one two := by
  cases finished with
  | true => exact .wrap twins (tips rfl) kind
  | false => exact .inside twins kind

theorem Finishing.around {script : Script Bool} [first : Finishing rules script]
    [Mirrored rules test] [Looking test] [Mirrored rules body] (kind : NodeKind) :
    Finishing rules (do
      let finished ← script
      if (← test) then
        around finished kind body
        pure true
      else pure finished) := by
  refine ⟨fun twins => (first.agrees twins).bind fun finished _ _ twins tips =>
    (Pair.Rules.Agrees.looks twins tips).bind fun seen _ _ twins tips => ?_⟩
  cases seen with
  | true =>
    exact (Pair.Rules.Agrees.around twins tips kind).bind fun _ _ _ twins tips =>
      .result twins fun _ => tips trivial
  | false => exact .result twins tips

theorem Finishing.wrap {script : Script Bool} [first : Finishing rules script]
    [Mirrored rules test] [Looking test] [Mirrored rules body] (kind : NodeKind) :
    Finishing rules (do
      if (← script) then
        if (← test) then Script.wrap kind body
        pure true
      else pure false) := by
  refine ⟨fun twins => (first.agrees twins).bind fun finished _ _ twins tips => ?_⟩
  cases finished with
  | false => exact .result twins nofun
  | true =>
    refine (Pair.Rules.Agrees.looks twins tips).bind fun seen _ _ twins tips => ?_
    cases seen with
    | true =>
      exact (Pair.Rules.Agrees.wrap twins (tips rfl) kind).bind fun _ _ _ twins tips =>
        .result twins fun _ => tips trivial
    | false => exact .result twins tips

end Offside.Grammar
