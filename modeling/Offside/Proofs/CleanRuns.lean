import Offside.Proofs.CleanReading

/-!
# Clean runs and readings

Every script keeps the nodes that are open around it, and what has been
reported stays reported.  So a run that has reported nothing in the end has
reported nothing on the way, and then it agrees step by step with a reading:
the same answers, the same tokens ahead, and the shapes of the finished trees
in the open node.  Where the reading gives up, the run has reported something.
-/

namespace Offside.Grammar

open Offside.Tree (forestNodes)
open Offside.Tree.Direct (rowOf)

variable {scene : Scene}

/-! ### Agreement -/

/-- Nothing is reported at the tree, and if names are neat it is no name but a single token. -/
def IsSound (neat : Bool) (tree : Tree) : Prop :=
  tree.error? = none ∧
    (neat = true → tree.isOfKind .moduleName = true → tree.children.length = 1)

/-- The reading keeps the shapes of the finished trees in the open node. -/
structure Pictures (scene : Scene) (state : State) (reading : Reading) : Prop
    extends Intact scene state where
  ahead : reading.ahead = state.ahead
  row : reading.row = (kids scene state).map Tree.shape?
  bearings : reading.toBearings = state.bearings
  silent : state.lastReport = none
  nodes : ∀ tree ∈ forestNodes (shown scene state), IsSound reading.neat tree

theorem Pictures.sound {state : State} {reading : Reading}
    (pictures : Pictures scene state reading) : ¬ Faulty scene state := by
  rintro ⟨tree, member, reported⟩
  rw [(pictures.nodes tree member).1] at reported
  cases reported

/-- The run ends as the reading does; where the reading gives up, something was reported. -/
def Agrees {α : Type} (scene : Scene) (ran : α × State) : Option (α × Reading) → Prop
  | none => Faulty scene ran.2
  | some (value, reading) => ran.1 = value ∧ Pictures scene ran.2 reading

variable {state : State} {reading : Reading}

theorem Pictures.stacked (pictures : Pictures scene state reading) :
    ∃ frame below, stack scene state = frame :: below ∧ kids scene state = frame.children := by
  obtain ⟨frame, below, stacked⟩ := List.exists_cons_of_ne_nil pictures.opened
  exact ⟨frame, below, stacked, kids_of_stack stacked⟩

theorem Pictures.operators (pictures : Pictures scene state reading) :
    reading.operators = state.operators :=
  congrArg Bearings.operators pictures.bearings

theorem Pictures.peek (pictures : Pictures scene state reading) (index : Nat) :
    reading.peek index = state.peek scene.setting index := by
  rw [Reading.peek, pictures.ahead, State.peek, State.tokenAt]
  cases state.ahead[index]? <;> rfl

theorem Pictures.sighting (pictures : Pictures scene state reading) :
    reading.sighting scene.setting = state.sighting scene.setting := by
  rw [Reading.sighting, pictures.ahead, State.sighting, State.current, State.tokenAt]
  cases state.ahead <;> rfl

theorem isTrivia_of_harmless {kind : TokenKind} (hidden : kind.isVisible = false)
    (harmless : State.triviaCause? kind = none) : kind.isTrivia = true := by
  cases kind <;> first | rfl | (cases hidden; done) | cases harmless

theorem not_isTrivia_of_isVisible {kind : TokenKind} (visible : kind.isVisible = true) :
    kind.isTrivia = false := by
  cases kind <;> first | rfl | cases visible

theorem foldl_takeTrivium_of_isHarmless {trivia rest : List Token}
    (harmless : Reading.isHarmless trivia = true) (opened : stack scene state ≠ [])
    (left : (drawn scene state).tokens = trivia ++ rest)
    (hidden : ∀ token ∈ trivia, token.kind.isVisible = false) :
    (kids scene (trivia.foldl (State.takeTrivium scene.setting) state)).map Tree.shape? =
        List.replicate trivia.length none ++ (kids scene state).map Tree.shape? ∧
      forestNodes (shown scene (trivia.foldl (State.takeTrivium scene.setting) state)) =
        forestNodes (shown scene state) := by
  induction trivia generalizing state with
  | nil => exact ⟨rfl, rfl⟩
  | cons token trivia ih =>
    rw [Reading.isHarmless, List.all_cons, Bool.and_eq_true, Option.isNone_iff_eq_none]
      at harmless
    obtain ⟨children, tokens, nodes⟩ := kids_take opened left token
    obtain ⟨row, nodesFinal⟩ := ih harmless.2 (retains_take opened token).opened tokens
      fun other member => hidden other (List.mem_cons_of_mem _ member)
    have shapeless : (Tree.leaf token).shape? = none := by
      rw [Tree.shape?, isTrivia_of_harmless (hidden token List.mem_cons_self) harmless.1]
      rfl
    rw [List.foldl_cons, takeTrivium_of_none scene.setting state harmless.1]
    refine ⟨?_, nodesFinal.trans nodes⟩
    rw [row, children, List.map_cons, shapeless, List.length_cons, List.replicate_succ',
      List.append_assoc]
    rfl

theorem faulty_foldl_takeTrivium {trivia : List Token}
    (harmful : Reading.isHarmless trivia = false) (opened : stack scene state ≠ []) :
    Faulty scene (trivia.foldl (State.takeTrivium scene.setting) state) := by
  induction trivia generalizing state with
  | nil => cases harmful
  | cons token trivia ih =>
    have once := retains_takeTrivium opened scene.setting token
    cases named : State.triviaCause? token.kind with
    | none =>
      refine ih ?_ once.opened
      simpa [Reading.isHarmless, named] using harmful
    | some cause =>
      refine (retains_foldl_takeTrivium scene.setting trivia once.opened).faulty ?_
      obtain ⟨diagnostic, -, -, taken⟩ := takeTrivium_of_some scene.setting state named
      rw [taken]
      exact (retains_start_take token).faulty_of_finish opened .error diagnostic

theorem Pictures.takeTrivia (pictures : Pictures scene state reading) :
    match reading.takeTrivia? with
    | none => Faulty scene (state.takeTrivia scene.setting)
    | some onward => Pictures scene (state.takeTrivia scene.setting) onward := by
  rw [Reading.takeTrivia?, pictures.ahead]
  cases ahead : state.ahead with
  | nil =>
    rw [State.takeTrivia, ahead]
    exact pictures
  | cons lexeme rest =>
    dsimp only
    have bare := (pictures.toIntact.takeTrivia (fun _ => true) ahead).1
    have left := pictures.left
    rw [ahead, List.flatMap_cons, Lexeme.tokens, List.append_assoc] at left
    obtain ⟨-, hidden⟩ := pictures.seen lexeme (by rw [ahead]; exact List.mem_cons_self)
    have trail : (state.takeTrivia scene.setting).trail =
        (lexeme.trivia.foldl (State.takeTrivium scene.setting) state).trail := by
      rw [takeTrivia_of_cons _ ahead]
    cases harmless : Reading.isHarmless lexeme.trivia with
    | false => exact faulty_of_trail trail (faulty_foldl_takeTrivium harmless pictures.opened)
    | true =>
      obtain ⟨row, nodes⟩ :=
        foldl_takeTrivium_of_isHarmless harmless pictures.opened left hidden
      obtain ⟨_, _, same⟩ : ∃ trail reached,
          lexeme.trivia.foldl (State.takeTrivium scene.setting) state =
            { state with trail, reached } :=
        foldl_takeTrivium_eq scene.setting lexeme.trivia
      refine ⟨bare, ?_, ?_, ?_, ?_, ?_⟩
      · rw [takeTrivia_of_cons _ ahead]
      · rw [kids_of_trail trail, row, pictures.row]
      · rw [takeTrivia_of_cons _ ahead, same]
        exact pictures.bearings
      · rw [takeTrivia_of_cons _ ahead, same]
        exact pictures.silent
      · rw [shown, stack_of_trail trail, ← shown, nodes]
        exact pictures.nodes

theorem Pictures.takeToken {lexeme : Lexeme} {rest : List Lexeme}
    (pictures : Pictures scene state reading) (ahead : state.ahead = lexeme :: rest)
    (bare : lexeme.trivia = []) :
    Pictures scene
      { state.take lexeme.token with
        ahead := rest
        position := state.position + 1
        openBrackets := State.bracketsAfter lexeme.token.kind state.openBrackets }
      reading.takeToken := by
  have left := pictures.left
  have seen := pictures.seen
  rw [ahead] at left seen
  rw [List.flatMap_cons, Lexeme.tokens, bare] at left
  obtain ⟨children, tokens, nodes⟩ := kids_take pictures.opened left lexeme.token
  obtain ⟨visible, -⟩ := seen lexeme List.mem_cons_self
  have bearings := pictures.bearings
  rw [Reading.takeToken, pictures.ahead, ahead]
  refine ⟨⟨?_, tokens, ?_⟩, rfl, ?_, ?_, pictures.silent, ?_⟩
  · exact (retains_take pictures.opened lexeme.token).opened
  · exact fun other member => seen other (List.mem_cons_of_mem _ member)
  · change _ = (kids scene (state.take lexeme.token)).map Tree.shape?
    rw [children, List.map_cons, ← pictures.row, Tree.shape?,
      not_isTrivia_of_isVisible visible]
    rfl
  · simp only [State.bearings] at bearings ⊢
    simp only [bearings, State.take]
  · change ∀ tree ∈ forestNodes (shown scene (state.take lexeme.token)), _
    rw [nodes]
    exact pictures.nodes

theorem Pictures.bump (pictures : Pictures scene state reading) :
    match reading.bump? with
    | none => Faulty scene (state.bump scene.setting)
    | some onward => Pictures scene (state.bump scene.setting) onward := by
  have trivia := pictures.takeTrivia
  have opened := (retains_takeTrivia pictures.opened scene.setting).opened
  rw [Reading.bump?]
  cases taken : reading.takeTrivia? with
  | none =>
    rw [taken] at trivia
    rw [State.bump]
    dsimp only [Option.map_none] at trivia ⊢
    split
    · exact trivia
    · next lexeme _ _ =>
        exact faulty_of_trail rfl ((retains_take opened lexeme.token).faulty trivia)
  | some outer =>
    rw [taken] at trivia
    dsimp only [Option.map_some] at trivia ⊢
    cases ahead : (state.takeTrivia scene.setting).ahead with
    | nil =>
      have stays : outer.takeToken = outer := by
        rw [Reading.takeToken, trivia.ahead, ahead]
      rw [State.bump]
      rw [ahead, stays]
      exact trivia
    | cons lexeme rest =>
      rw [State.bump]
      rw [ahead]
      exact trivia.takeToken ahead (bare_takeTrivia ahead)

/-! ### Nodes -/

section Nodes

variable {inner : State} {within : Reading}

theorem Pictures.mark (pictures : Pictures scene state reading) {mark : Mark}
    (other : mark ≠ .token) (opened : stack scene (state.mark mark) ≠ [])
    {row : List (Option Shape)} (isRow : row = (kids scene (state.mark mark)).map Tree.shape?)
    {neat : Bool}
    (nodes : ∀ tree ∈ forestNodes (shown scene (state.mark mark)), IsSound neat tree) :
    Pictures scene (state.mark mark) { reading with row, neat } where
  toIntact := pictures.toIntact.mark other opened
  ahead := pictures.ahead
  row := isRow
  bearings := pictures.bearings
  silent := pictures.silent
  nodes := nodes

theorem Pictures.start (pictures : Pictures scene state reading) :
    Pictures scene (state.mark .start) { reading with row := [] } :=
  pictures.mark (by rintro ⟨⟩) (opened_start state) (by rw [kids_start]; rfl)
    (by rw [shown_start]; exact pictures.nodes)

theorem Pictures.closed {frame parent : Tree.Direct.Frame} {below : List Tree.Direct.Frame}
    (pictures : Pictures scene inner within) (kind : NodeKind)
    (stacked : stack scene inner = frame :: parent :: below) :
    Pictures scene (inner.mark (.finish kind none))
      (within.close kind (parent.children.map Tree.shape?)) := by
  have after := stack_finish kind none stacked
  refine pictures.mark (by rintro ⟨⟩) (by rw [after]; exact List.cons_ne_nil _ _) ?_ ?_
  · rw [kids_of_stack after, List.map_cons, Tree.shape?_ofChildren, ← kids_of_stack stacked,
      ← pictures.row]
  · intro tree member
    rcases (forestNodes_shown_finish kind none stacked tree).mp member with rfl | earlier
    · refine ⟨rfl, fun neat named => ?_⟩
      have one := (Bool.and_eq_true_iff.mp neat).2
      rw [pictures.row, kids_of_stack stacked, List.length_map] at one
      simpa [Option.some.inj (of_decide_eq_true named), Tree.ofChildren, Tree.children] using one
    · exact (pictures.nodes tree earlier).imp_right fun single neat =>
        single (Bool.and_eq_true_iff.mp neat).1

theorem Pictures.abandoned {frame parent : Tree.Direct.Frame}
    {below : List Tree.Direct.Frame} (pictures : Pictures scene inner within)
    (stacked : stack scene inner = frame :: parent :: below) :
    Pictures scene (inner.mark .abandon)
      { within with row := within.row ++ parent.children.map Tree.shape? } := by
  have after := stack_abandon stacked
  refine pictures.mark (by rintro ⟨⟩) (by rw [after]; exact List.cons_ne_nil _ _) ?_ ?_
  · rw [pictures.row, kids_of_stack stacked, ← List.map_append, kids_of_stack after]
  · rw [shown_abandon stacked]
    exact pictures.nodes

theorem Pictures.precede (pictures : Pictures scene state reading) :
    Pictures scene (state.mark (.precede 0)) { reading with row := reading.row.take 1 } := by
  obtain ⟨frame, below, stacked, children⟩ := pictures.stacked
  refine pictures.mark (by rintro ⟨⟩) (opened_precede pictures.opened) ?_ ?_
  · rw [pictures.row, children, ← List.map_take, kids_of_stack (stack_precede stacked)]
  · rw [shown_precede pictures.opened]
    exact pictures.nodes

end Nodes

/-! ### Scripts -/

section Scripts

variable {run : Rule → State → Bool × State} {read : Rule → Reading → Option (Bool × Reading)}

/-- The rules retain what every script retains, and they agree with those of the reading. -/
structure RulesAgree (scene : Scene) (run : Rule → State → Bool × State)
    (read : Rule → Reading → Option (Bool × Reading)) : Prop where
  retains : ∀ rule state, stack scene state ≠ [] → Retains scene state (run rule state).2
  agrees : ∀ rule state reading, Pictures scene state reading →
    Agrees scene (run rule state) (read rule reading)

variable {α : Type}

theorem Agrees.of_match {value : α} {after : State} {onward : Option Reading}
    (holds : match onward with
      | none => Faulty scene after
      | some reading => Pictures scene after reading) :
    Agrees scene (value, after) (onward.map (value, ·)) := by
  cases onward with
  | none => exact holds
  | some reading => exact ⟨rfl, holds⟩

theorem faulty_node {inner : Option NodeKind × State}
    (inside : Retains scene (state.mark .start) inner.2) (opened : stack scene state ≠ [])
    (faulty : Faulty scene inner.2) :
    Faulty scene (match inner with
      | (some kind, after) => (true, after.mark (.finish kind none))
      | (none, after) => (false, after.mark .abandon)).2 := by
  obtain ⟨frame, parent, below, stacked, -⟩ := inside.stack_inside opened
  obtain ⟨kind?, after⟩ := inner
  cases kind? with
  | none =>
    rw [Faulty, shown_abandon stacked]
    exact faulty
  | some kind => exact faulty_finish kind none stacked faulty

theorem node_agrees {outer : Reading} {inner : Option NodeKind × State}
    {read : Option (Option NodeKind × Reading)} (pictures : Pictures scene state outer)
    (inside : Retains scene (state.mark .start) inner.2) (agrees : Agrees scene inner read) :
    Agrees scene
      (match inner with
      | (some kind, after) => (true, after.mark (.finish kind none))
      | (none, after) => (false, after.mark .abandon))
      (read.map fun
        | (some kind, within) => (true, within.close kind outer.row)
        | (none, within) => (false, { within with row := within.row ++ outer.row })) := by
  obtain ⟨frame, parent, below, stacked, around⟩ := inside.stack_inside pictures.opened
  have children : outer.row = parent.children.map Tree.shape? := by
    rw [pictures.row, kids_of_stack around]
  cases read with
  | none => exact faulty_node inside pictures.opened agrees
  | some outcome =>
    obtain ⟨kind?, within⟩ := outcome
    obtain ⟨answer, after⟩ := inner
    obtain ⟨rfl, holds⟩ := agrees
    cases answer with
    | none =>
      have given := holds.abandoned stacked
      rw [← children] at given
      exact ⟨rfl, given⟩
    | some kind =>
      have given := holds.closed kind stacked
      rw [← children] at given
      exact ⟨rfl, given⟩

theorem wrap_agrees {inner : Unit × State} {read : Option (Unit × Reading)}
    (pictures : Pictures scene state reading) (kind : NodeKind)
    (inside : Retains scene (state.mark (.precede 0)) inner.2) (agrees : Agrees scene inner read) :
    Agrees scene ((), inner.2.mark (.finish kind none))
      (read.map fun | ((), within) => ((), within.close kind (reading.row.drop 1))) := by
  obtain ⟨frame, below, around, children⟩ := pictures.stacked
  obtain ⟨top, rest, stacked⟩ := List.exists_cons_of_ne_nil inside.opened
  have same : rest = { frame with children := frame.children.drop 1 } :: below := by
    have below_ := inside.below
    rw [stacked, stack_precede around] at below_
    exact below_
  rw [same] at stacked
  cases read with
  | none => exact faulty_finish kind none stacked agrees
  | some outcome =>
    obtain ⟨-, holds⟩ := agrees
    have given := holds.closed kind stacked
    rw [List.map_drop, ← children, ← pictures.row] at given
    exact ⟨rfl, given⟩

theorem Pictures.steer {turned : State} {onward : Reading}
    (pictures : Pictures scene state reading) (trail : turned.trail = state.trail)
    (ahead : turned.ahead = state.ahead) (report : turned.lastReport = state.lastReport)
    (aheadRead : onward.ahead = reading.ahead) (row : onward.row = reading.row)
    (neat : onward.neat = reading.neat)
    (bearings : onward.toBearings = turned.bearings) : Pictures scene turned onward where
  toIntact := pictures.toIntact.of_trail trail ahead
  ahead := by rw [aheadRead, pictures.ahead, ahead]
  row := by rw [row, pictures.row, kids_of_trail trail]
  bearings := bearings
  silent := by rw [report, pictures.silent]
  nodes := by
    rw [shown, stack_of_trail trail, neat]
    exact pictures.nodes

theorem declare_agrees (pictures : Pictures scene state reading) (space : Namespace)
    (operator : String) (fixity : Fixity) :
    Agrees scene (state.declare scene.setting space operator fixity)
      (some (reading.declare scene.setting space operator fixity)) := by
  have declared : reading.declared = state.declared :=
    congrArg Bearings.declared pictures.bearings
  rw [Reading.declare, State.declare, declared]
  cases state.declared.stored? space operator with
  | some previous => exact ⟨rfl, pictures⟩
  | none =>
    refine ⟨rfl, pictures.steer rfl rfl rfl rfl rfl rfl ?_⟩
    exact congrArg (fun bearings => { bearings with
      declared := state.declared.insert space operator fixity
      operators :=
        if scene.setting.declaresInOrder then
          bearings.operators.insert space operator fixity
        else bearings.operators }) pictures.bearings

theorem iterate_agrees {σ : Type} {round : σ → State → ForInStep σ × State}
    {round? : σ → Reading → Option (ForInStep σ × Reading)}
    (retains : ∀ value state, stack scene state ≠ [] →
      Retains scene state (round value state).2)
    (once : ∀ value state reading, Pictures scene state reading →
      Agrees scene (round value state) (round? value reading))
    (bound : Nat) (value : σ) (state : State) (reading : Reading)
    (pictures : Pictures scene state reading) :
    Agrees scene (iterate round bound value state) (iterate? round? bound value reading) := by
  induction bound generalizing value state reading with
  | zero => exact ⟨rfl, pictures⟩
  | succ bound ih =>
    have agrees := once value state reading pictures
    have opened := (retains value state pictures.opened).opened
    rw [iterate?]
    cases read : round? value reading with
    | none =>
      rw [read] at agrees
      rw [iterate]
      split
      · next ran =>
          rw [ran] at agrees
          exact agrees
      · next ran =>
          rw [ran] at agrees opened
          exact (iterate_retains retains bound _ _ opened).faulty agrees
    | some outcome =>
      obtain ⟨answer, onward⟩ := outcome
      rw [read] at agrees
      obtain ⟨same, holds⟩ := agrees
      rw [iterate]
      split
      · next ran =>
          rw [ran] at same holds
          subst same
          exact ⟨rfl, holds⟩
      · next ran =>
          rw [ran] at same holds
          subst same
          exact ih _ _ _ holds

theorem Script.agrees (rules : RulesAgree scene run read) (script : Script α) (state : State)
    (reading : Reading) (pictures : Pictures scene state reading) :
    Agrees scene (script.run scene.setting run state)
      (script.read? ⟨scene.setting, read⟩ reading) := by
  induction script generalizing state reading with
  | result value => exact ⟨rfl, pictures⟩
  | andThen body next ihBody ihNext =>
    have agrees := ihBody state reading pictures
    have opened := (body.retains scene.setting rules.retains state
      pictures.opened).opened
    rw [Script.read?]
    cases ran : body.read? ⟨scene.setting, read⟩ reading with
    | none =>
      rw [ran] at agrees
      exact ((next _).retains scene.setting rules.retains _ opened).faulty agrees
    | some outcome =>
      obtain ⟨value, onward⟩ := outcome
      rw [ran] at agrees
      obtain ⟨same, holds⟩ := agrees
      subst same
      exact ihNext _ _ _ holds
  | peek index => exact ⟨(pictures.peek index).symm, pictures⟩
  | search wanted stops => exact ⟨by rw [pictures.ahead]; rfl, pictures⟩
  | position => exact ⟨congrArg Bearings.position pictures.bearings.symm, pictures⟩
  | insideBrackets =>
    have same : reading.openBrackets = state.openBrackets :=
      congrArg Bearings.openBrackets pictures.bearings
    exact ⟨by rw [same]; rfl, pictures⟩
  | sighting => exact ⟨pictures.sighting.symm, pictures⟩
  | bump => exact Agrees.of_match pictures.bump
  | report cause expected =>
    exact faulty_report pictures.opened scene.setting cause expected pictures.silent
  | fault cause expected body ih =>
    have trivia := retains_takeTrivia pictures.opened scene.setting
    have inside := body.retains scene.setting rules.retains _
      (opened_start (state.takeTrivia scene.setting))
    exact inside.faulty_of_finish trivia.opened .error _
  | blame cause found =>
    have above := Retains.refl pictures.precede.opened
    exact (above.wrap pictures.opened .error (some _)).2 rfl
  | node body ih =>
    have trivia := pictures.takeTrivia
    have opened := (retains_takeTrivia pictures.opened scene.setting).opened
    have inside := body.retains scene.setting rules.retains _
      (opened_start (state.takeTrivia scene.setting))
    rw [Script.read?]
    cases taken : reading.takeTrivia? with
    | none =>
      rw [taken] at trivia
      have faulty := inside.faulty (faulty_start.mpr trivia)
      exact faulty_node inside opened faulty
    | some outer =>
      rw [taken] at trivia
      have agrees := ih _ _ trivia.start
      exact node_agrees trivia inside agrees
  | wrap kind body ih =>
    have inside := body.retains scene.setting rules.retains _
      pictures.precede.opened
    exact wrap_agrees pictures kind inside (ih _ _ pictures.precede)
  | deepen =>
    have same : reading.depth = state.depth := congrArg Bearings.depth pictures.bearings
    rw [Script.read?, Script.run, same]
    split
    · exact ⟨rfl, pictures.steer rfl rfl rfl rfl rfl rfl
        (congrArg ({ · with depth := state.depth + 1 }) pictures.bearings)⟩
    · exact ⟨rfl, pictures⟩
  | leave =>
    exact ⟨rfl, pictures.steer rfl rfl rfl rfl rfl rfl (congrArg (fun bearings =>
      { bearings with depth := bearings.depth - 1 }) pictures.bearings)⟩
  | loop start round ih =>
    exact iterate_agrees (fun value => (round value).retains scene.setting rules.retains) ih
      scene.setting.rounds start state reading pictures
  | call rule => exact rules.agrees rule state reading pictures
  | lookup space operator => exact ⟨by rw [pictures.operators]; rfl, pictures⟩
  | reportsUnknown => exact ⟨rfl, pictures⟩
  | declare space operator fixity => exact declare_agrees pictures space operator fixity
  | forgetBrackets =>
    exact ⟨rfl, pictures.steer rfl rfl rfl rfl rfl rfl
      (congrArg ({ · with openBrackets := 0 }) pictures.bearings)⟩
  | poll =>
    have same : reading.polls = state.polls := congrArg Bearings.polls pictures.bearings
    refine ⟨by rw [same]; rfl, pictures.steer rfl rfl rfl rfl rfl rfl ?_⟩
    exact congrArg (fun bearings => { bearings with polls := bearings.polls + 1 })
      pictures.bearings

theorem rulesAgree_runRule (scene : Scene) (scripts : Rule → Script Bool) (bound : Nat) :
    RulesAgree scene (runRule scene.setting scripts bound)
      (readRule? scene.setting scripts bound) where
  retains := runRule_retains scene.setting scripts bound
  agrees := by
    induction bound with
    | zero =>
      intro rule state reading pictures
      exact faulty_report pictures.opened scene.setting .syntactic [] pictures.silent
    | succ bound ih =>
      intro rule state reading pictures
      exact (scripts rule).agrees ⟨runRule_retains scene.setting scripts bound, ih⟩ state
        reading pictures

end Scripts

end Offside.Grammar

/-! ### Whole texts -/

namespace Offside.Job

open Offside.Grammar

variable (job : Job)

def openingReading : Reading :=
  { job.opening.bearings with
    ahead := Lexeme.group job.tokens
    row := []
    neat := true }

@[reducible]
def reader : Reader :=
  .upTo job.scene.setting (callBound job.scene.setting.rounds)

def readWhole? : Option (Bool × Reading) :=
  wholeModule.read? job.reader job.openingReading

theorem opening_pictures : Pictures job.scene job.opening job.openingReading where
  toIntact := job.opening_intact
  ahead := rfl
  row := rfl
  bearings := rfl
  silent := rfl
  nodes := by
    exact List.forall_mem_nil _

theorem ending_agrees : Agrees job.scene job.ending job.readWhole? := by
  rw [ending]
  exact wholeModule.agrees (rulesAgree_runRule _ scriptOf _) _ _ job.opening_pictures

theorem hasErrors_eq_false_iff :
    job.run.parse.hasErrors = false ↔ ¬ Faulty job.scene job.ending.2 := by
  obtain ⟨span, children, nodes⟩ := job.descendants_root_run
  rw [Parse.hasErrors, Parse.errors, Bool.not_eq_false', List.isEmpty_iff, Tree.diagnostics,
    List.filterMap_eq_nil_iff, nodes]
  constructor
  · rintro clean ⟨tree, member, reported⟩
    rw [clean tree (List.mem_cons_of_mem _ member)] at reported
    cases reported
  · intro sound tree member
    rcases List.mem_cons.mp member with rfl | inner
    · rfl
    · exact Option.not_isSome_iff_eq_none.mp fun reported => sound ⟨tree, inner, reported⟩

/-- A text that can be read without faults is parsed so, and the root has the shapes read. -/
theorem run_of_readWhole? {reading : Reading} (read : job.readWhole? = some (false, reading)) :
    job.run.cancelled = false ∧ job.run.parse.hasErrors = false ∧
      job.run.parse.root.shape? = some (.node .wholeModule reading.row.shapes) := by
  have agrees := job.ending_agrees
  rw [read] at agrees
  obtain ⟨finished, pictures⟩ := agrees
  obtain ⟨span, root⟩ := job.root_run
  refine ⟨?_, job.hasErrors_eq_false_iff.mpr pictures.sound, ?_⟩
  · rw [run_eq]
    exact finished
  · rw [root, job.ending_ahead finished, List.flatMap_nil, List.map_nil, List.append_nil,
      shown_ending, Tree.shape?, Tree.shapes_reverse, ← pictures.row]

theorem readWhole?_of_clean (clean : job.run.parse.hasErrors = false) :
    ∃ reading, job.readWhole? = some (job.run.cancelled, reading) ∧
      Pictures job.scene job.ending.2 reading := by
  have agrees := job.ending_agrees
  cases read : job.readWhole? with
  | none =>
    rw [read] at agrees
    exact absurd agrees (job.hasErrors_eq_false_iff.mp clean)
  | some outcome =>
    obtain ⟨cancelled, reading⟩ := outcome
    rw [read] at agrees
    obtain ⟨same, pictures⟩ := agrees
    rw [cancelled_run, same]
    exact ⟨reading, rfl, pictures⟩

theorem hasErrors_of_readWhole?_eq_none (unread : job.readWhole? = none) :
    job.run.parse.hasErrors = true := by
  have agrees := job.ending_agrees
  rw [unread] at agrees
  by_contra clean
  exact job.hasErrors_eq_false_iff.mp (Bool.not_eq_true _ ▸ clean) agrees

end Offside.Job
