import Offside.Proofs.TriviaIndependence

/-!
# Diagnostics do not depend on trivia

If error nodes without children are kept, a sketch tells the causes of all
diagnostics.  Two texts with the same landmarks then still have the same sketch
if both end in trivia or neither does.  Behind the last token it counts, since
of two reports at one place only the first is kept: trivia at the end of the
text, taken between two reports, makes them reports at two places.  At the
beginning it does not count, because nothing is reported there before the first
node is opened.
-/

namespace Offside

/-! ### Causes -/

mutual

/-- The causes of the diagnostics in a sketch, each in front of those below it. -/
def Sketch.causes : Sketch → List Cause
  | leaf _ _ => []
  | node _ cause children => cause.toList ++ Sketch.rowCauses children

def Sketch.rowCauses : List Sketch → List Cause
  | [] => []
  | sketch :: rest => sketch.causes ++ Sketch.rowCauses rest

end

namespace Tree

mutual

theorem causes_nodes (tree : Tree) :
    (tree.nodes.filterMap error?).map Diagnostic.cause =
      ((tree.sketch? true).map Sketch.causes).getD [] := by
  match tree with
  | leaf token =>
    rw [nodes, sketch?, Sketch.ofToken?]
    split <;> rfl
  | node kind span error children =>
    rw [nodes, sketch?, Sketch.ofNode?, if_neg (by simp), List.filterMap_cons]
    cases error with
    | none => exact causes_forestNodes children
    | some diagnostic => exact congrArg _ (causes_forestNodes children)

theorem causes_forestNodes (trees : List Tree) :
    ((forestNodes trees).filterMap error?).map Diagnostic.cause =
      Sketch.rowCauses (sketchRow true trees) := by
  match trees with
  | [] => rfl
  | tree :: rest =>
    rw [forestNodes, List.filterMap_append, List.map_append, causes_nodes tree,
      causes_forestNodes rest, sketchRow]
    cases tree.sketch? true <;> rfl

end

theorem causes_diagnostics {tree : Tree} {sketch : Sketch}
    (sketched : tree.sketch? true = some sketch) :
    tree.diagnostics.map Diagnostic.cause = sketch.causes := by
  rw [diagnostics, descendants_eq_nodes, causes_nodes, sketched]
  rfl

end Tree

namespace Grammar

/-! ### Before the first node -/

/-- The two runs have taken nothing and reported nothing. -/
structure Pair.Poised (pair : Pair) (one two : State) : Prop
    extends pair.InStep one two where
  ahead : Aligned pair.keepsEmpty one.ahead two.ahead
  silentLeft : one.lastReport = none
  silentRight : two.lastReport = none

variable {α β : Type} {pair : Pair} {rules : pair.Rules} {one two : State}

namespace Pair.Poised

theorem of_eq {first second : State} (poised : pair.Poised one two)
    (left : Steady one first) (right : Steady two second)
    (bearings : first.bearings = second.bearings) : pair.Poised first second where
  toInStep := poised.toInStep.of_eq left right bearings
  ahead := by
    rw [left.ahead, right.ahead]
    exact poised.ahead
  silentLeft := left.report.trans poised.silentLeft
  silentRight := right.report.trans poised.silentRight

theorem kindAhead_eq (poised : pair.Poised one two) (index : Nat) :
    kindAhead pair.right two index = kindAhead pair.left one index := by
  have peeks : two.peek pair.right.setting index = one.peek pair.left.setting index := by
    rw [peek_eq, peek_eq, poised.ahead.sights]
  exact congrArg Sight.kind peeks

theorem first (poised : pair.Poised one two) :
    (kindAhead pair.left one 0).isVirtual = false ∨ kindAhead pair.left one 0 = .eof := by
  have aligned := poised.ahead
  rw [kindAhead, State.tokenAt]
  generalize one.ahead = ahead, two.ahead = other at aligned ⊢
  cases aligned with
  | intro _ first _ _ => exact first

theorem takeTrivia (poised : pair.Poised one two) :
    pair.Twins (one.takeTrivia pair.left.setting) (two.takeTrivia pair.right.setting) := by
  have aligned := poised.ahead
  generalize foundOne : one.ahead = left, foundTwo : two.ahead = right at aligned
  cases aligned with
  | intro sight _ trivia matched =>
    refine .of_takeTrivia poised.toInStep foundOne foundTwo sight trivia matched fun _ => ?_
    rw [State.HasReported, State.HasReported, poised.silentLeft, poised.silentRight]
    exact iff_of_false (by rintro ⟨⟨⟩, -⟩) (by rintro ⟨⟨⟩, -⟩)

end Pair.Poised

/-! ### Up to the first node -/

theorem Pair.Rules.Agrees.after {script : Script α} {next : α → Script β}
    {finishes : β → Prop} {answer : α} {first second : State}
    (left : script.run pair.left.setting rules.left one = (answer, first))
    (right : script.run pair.right.setting rules.right two = (answer, second))
    (later : rules.Agrees finishes (next answer) first second) :
    rules.Agrees finishes (script >>= next) one two := by
  rw [Agrees, run_bind, run_bind, left, right]
  exact later

section Looking

variable {scene : Scene} {calls : Rule → State → Bool × State} {state : State}

theorem run_whileSeen_of_false {test : Script Bool} {body : Script Unit}
    (fails : test.run scene.setting calls state = (false, state)) :
    (whileSeen test body).run scene.setting calls state = ((), state) := by
  rw [Script.run]
  cases scene.setting.rounds with
  | zero => rfl
  | succ bound =>
    rw [iterate, run_bind, fails]
    rfl

theorem run_seesEnd_of_first (real : (kindAhead scene state 0).isVirtual = false)
    (other : (kindAhead scene state 0).startsTopLevel = false) (closed : state.openBrackets = 0) :
    (seesEnd []).run scene.setting calls state = (false, state) := by
  rw [run_bind, show kind.run scene.setting calls state = (kindAhead scene state 0, state) from rfl]
  generalize kindAhead scene state 0 = kind at real other ⊢
  have noMark : kind ≠ .eof ∧ kind ≠ .layoutSep ∧ kind ≠ .layoutEnd := by
    refine ⟨?_, ?_, ?_⟩ <;> (rintro rfl; cases real)
  rw [if_neg (by simp [noMark, other])]
  split
  · show (decide (0 < state.openBrackets), state) = _
    rw [closed]
    rfl
  · rfl

end Looking

/-! ### The first declaration -/

section Modules

theorem Pair.Poised.agrees_kindAt {next : TokenKind → Script α} {finishes : α → Prop}
    (poised : pair.Poised one two) (index : Nat)
    (later : rules.Agrees finishes (next (kindAhead pair.left one index)) one two) :
    rules.Agrees finishes (kindAt index >>= next) one two :=
  .after rfl (congrArg (·, two) (poised.kindAhead_eq index)) later

theorem Pair.Poised.agrees_recover (poised : pair.Poised one two) (expected : List TokenKind)
    (real : (kindAhead pair.left one 0).isVirtual = false)
    (other : (kindAhead pair.left one 0).startsTopLevel = false) (closed : one.openBrackets = 0) :
    rules.Agrees (fun _ => False) (recover expected []) one two := by
  have realToo := real
  have otherToo := other
  rw [← poised.kindAhead_eq] at realToo otherToo
  have closedToo : two.openBrackets = 0 :=
    (congrArg Bearings.openBrackets poised.bearings).symm.trans closed
  refine .after (run_seesEnd_of_first real other closed)
    (run_seesEnd_of_first realToo otherToo closedToo) ?_
  exact poised.agrees_kindAt 0
    ((Pair.Rules.Agrees.fault poised.takeTrivia _ _).mono fun _ => False.elim)

theorem Pair.Poised.agrees_decl (poised : pair.Poised one two)
    (real : (kindAhead pair.left one 0).isVirtual = false)
    (closed : one.openBrackets = 0) : rules.Agrees (fun _ => False) decl one two := by
  have ready := poised.takeTrivia
  refine poised.agrees_kindAt 0 ?_
  split
  case h_12 =>
    refine poised.agrees_kindAt 1 ?_
    split
    · exact NodeFirst.agrees ready
    · exact NodeFirst.agrees ready
  case h_13 =>
    -- The words that only start declarations have branches of their own above.
    refine poised.agrees_recover declStarts real ?_ closed
    generalize kindAhead pair.left one 0 = kind at *
    cases kind with
    | keyword word => cases word <;> first | rfl | contradiction
    | _ => rfl
  all_goals exact NodeFirst.agrees ready

theorem Pair.Poised.agrees_topLevelItem (poised : pair.Poised one two)
    (real : (kindAhead pair.left one 0).isVirtual = false) :
    rules.Agrees (fun _ => False) topLevelItem one two := by
  have unbracketed : pair.Poised { one with openBrackets := 0 } { two with openBrackets := 0 } :=
    poised.of_eq ⟨rfl, rfl, rfl, rfl⟩ ⟨rfl, rfl, rfl, rfl⟩
      (congrArg (fun bearings : Bearings => { bearings with openBrackets := 0 })
        poised.bearings)
  have positions : two.position = one.position :=
    (congrArg Bearings.position poised.bearings).symm
  refine .after rfl rfl ?_
  have item : rules.Agrees (fun _ => False) (progress decl)
      { one with openBrackets := 0 } { two with openBrackets := 0 } := by
    refine .after rfl (by rw [← positions]; rfl) ?_
    exact (unbracketed.agrees_decl real rfl).bind fun _ _ _ twins _ => Mirrored.agrees twins
  exact item.bind fun _ _ _ twins _ => Mirrored.agrees twins

theorem Pair.Poised.poll (poised : pair.Poised one two) :
    pair.Poised (one.poll pair.left.setting).2 (two.poll pair.right.setting).2 :=
  poised.of_eq ⟨rfl, rfl, rfl, rfl⟩ ⟨rfl, rfl, rfl, rfl⟩
    (congrArg (fun bearings : Bearings => { bearings with polls := bearings.polls + 1 })
      poised.bearings)

/-- Nobody gives the runs up, and their loops go round. -/
structure Setting.Lasting (setting : Setting) : Prop where
  patient : ∀ polls, setting.isCancelled polls = false
  turns : 0 < setting.rounds

theorem Setting.Alike.lasting {setting other : Setting} (alike : setting.Alike other)
    (lasting : setting.Lasting) : other.Lasting :=
  ⟨alike.isCancelled ▸ lasting.patient, alike.rounds ▸ lasting.turns⟩

section OneRun

variable {scene : Scene} {calls : Rule → State → Bool × State} {state : State}

theorem run_poll (lasting : scene.setting.Lasting) :
    Script.poll.run scene.setting calls state = (false, (state.poll scene.setting).2) := by
  show (scene.setting.isCancelled _, _) = _
  rw [lasting.patient]
  rfl

theorem run_topLevel_of_end (lasting : scene.setting.Lasting)
    (ends : kindAhead scene state 0 = .eof) :
    topLevel.run scene.setting calls state = (false, (state.poll scene.setting).2) := by
  obtain ⟨bound, rounds⟩ := Nat.exists_eq_add_one_of_ne_zero (Nat.ne_of_gt lasting.turns)
  have polled : kindAhead scene (state.poll scene.setting).2 0 = .eof := ends
  have noSeparator : (eat .layoutSep).run scene.setting calls (state.poll scene.setting).2 =
      (false, (state.poll scene.setting).2) := run_eat_of_not_sees (by rw [polled]; nofun)
  have seen : (seesAny [.layoutEnd, .eof]).run scene.setting calls (state.poll scene.setting).2 =
      (true, (state.poll scene.setting).2) := by
    show (List.contains _ (kindAhead scene (state.poll scene.setting).2 0), _) = _
    rw [polled]
    rfl
  rw [Script.run, rounds, iterate, run_bind, run_poll lasting]
  rw [if_neg Bool.false_ne_true, run_bind, run_whileSeen_of_false noSeparator, run_bind, seen]
  rfl

theorem run_moduleItems_of_end (lasting : scene.setting.Lasting)
    (ends : kindAhead scene state 0 = .eof) :
    moduleItems.run scene.setting calls state = (false, (state.poll scene.setting).2) := by
  have noHeader : (sees (.keyword .moduleWord)).run scene.setting calls state =
      (false, state) := by
    show (decide (kindAhead scene state 0 = _), state) = _
    rw [ends]
    rfl
  rw [run_bind, noHeader]
  exact run_topLevel_of_end lasting ends

theorem run_leftover_of_end (ends : kindAhead scene state 0 = .eof) :
    (whileSeen seesMore (misfit [])).run scene.setting calls state = ((), state) := by
  refine run_whileSeen_of_false ?_
  show (decide (kindAhead scene state 0 ≠ .eof), state) = _
  rw [ends]
  rfl

theorem bump_takeTrivia (setting : Setting) :
    (state.takeTrivia setting).bump setting = state.bump setting := by
  match found : state.ahead with
  | [] =>
    rw [State.takeTrivia, found]
  | lexeme :: rest =>
    have ready : (state.takeTrivia setting).ahead = { lexeme with trivia := [] } :: rest := by
      rw [takeTrivia_of_cons setting found]
    have still : (state.takeTrivia setting).takeTrivia setting = state.takeTrivia setting := by
      rw [takeTrivia_of_cons setting ready]
      exact congrArg (fun ahead => { state.takeTrivia setting with ahead }) ready.symm
    rw [bump_of_cons setting ready, bump_of_cons setting found, still]

end OneRun

theorem Pair.Poised.run_separators (poised : pair.Poised one two) :
    (whileSeen (eat .layoutSep) (pure ())).run pair.left.setting rules.left one = ((), one) ∧
      (whileSeen (eat .layoutSep) (pure ())).run pair.right.setting rules.right two =
        ((), two) := by
  have other : kindAhead pair.left one 0 ≠ .layoutSep := by
    intro isSep
    rcases poised.first with real | ends
    · rw [isSep] at real
      cases real
    · rw [isSep] at ends
      cases ends
  exact ⟨run_whileSeen_of_false (run_eat_of_not_sees other),
    run_whileSeen_of_false (run_eat_of_not_sees (by rw [poised.kindAhead_eq]; exact other))⟩

theorem Pair.Poised.agrees_topLevel (poised : pair.Poised one two)
    (lasting : pair.left.setting.Lasting) (real : (kindAhead pair.left one 0).isVirtual = false) :
    rules.Agrees (fun _ => False) topLevel one two := by
  have goesOn : [.layoutEnd, .eof].contains
      (kindAhead pair.left (one.poll pair.left.setting).2 0) = false := by
    show [.layoutEnd, .eof].contains (kindAhead pair.left one 0) = false
    generalize kindAhead pair.left one 0 = kind at real
    cases kind <;> first | rfl | cases real
  have goesOnToo : [.layoutEnd, .eof].contains
      (kindAhead pair.right (two.poll pair.right.setting).2 0) = false := by
    rw [poised.poll.kindAhead_eq, goesOn]
  obtain ⟨noneLeft, noneRight⟩ := poised.poll.run_separators
  refine .loop_first lasting.turns
    (.after (run_poll lasting) (run_poll (pair.alike.lasting lasting)) ?_)
  refine .after noneLeft noneRight (.after (congrArg (·, _) goesOn) (congrArg (·, _) goesOnToo) ?_)
  exact (poised.poll.agrees_topLevelItem real).bind fun _ _ _ twins _ => Mirrored.agrees twins

theorem Pair.Poised.agrees_moduleItems (poised : pair.Poised one two)
    (lasting : pair.left.setting.Lasting) (real : (kindAhead pair.left one 0).isVirtual = false) :
    rules.Agrees (fun _ => False) moduleItems one two := by
  by_cases isModule : kindAhead pair.left one 0 = .keyword .moduleWord
  · have isModuleToo := isModule
    rw [← poised.kindAhead_eq] at isModuleToo
    refine .after (congrArg (·, _) (decide_eq_true isModule))
      (congrArg (·, _) (decide_eq_true isModuleToo)) ?_
    exact (NodeFirst.agrees poised.takeTrivia).bind fun _ _ _ twins _ => Mirrored.agrees twins
  · have notModuleToo := isModule
    rw [← poised.kindAhead_eq] at notModuleToo
    refine .after (congrArg (·, _) (decide_eq_false isModule))
      (congrArg (·, _) (decide_eq_false notModuleToo)) ?_
    exact poised.agrees_topLevel lasting real

theorem Pair.Poised.agrees_wholeModule (poised : pair.Poised one two)
    (lasting : pair.left.setting.Lasting) : rules.Agrees (fun _ => False) wholeModule one two := by
  rcases poised.first with real | ends
  · refine (poised.agrees_moduleItems lasting real).bind fun cancelled _ _ twins _ => ?_
    exact Mirrored.agrees twins
  · -- In a text without landmarks only its end takes the trivia.
    have endsToo : kindAhead pair.right two 0 = .eof := by rw [poised.kindAhead_eq, ends]
    refine .after (run_moduleItems_of_end lasting ends)
      (run_moduleItems_of_end (pair.alike.lasting lasting) endsToo) ?_
    refine .after (run_leftover_of_end ends) (run_leftover_of_end endsToo) ?_
    have last := poised.poll.takeTrivia.bump
    rw [bump_takeTrivia, bump_takeTrivia] at last
    exact ⟨rfl, last, False.elim⟩

end Modules

end Grammar

/-! ### Runs of whole texts -/

theorem Job.poised_opening (job : Job) {keepsEmpty : Bool} {other : String}
    (aligned : Grammar.Aligned keepsEmpty (Grammar.Lexeme.group job.tokens)
      (Grammar.Lexeme.group (job.on other).tokens)) :
    (job.parses aligned).Poised job.opening (job.on other).opening where
  toInStep := job.inStep_opening aligned
  ahead := aligned
  silentLeft := rfl
  silentRight := rfl

namespace Parse

/--
Two texts with the same significant tokens at the same columns, where the same
ones are the first on their lines, report the same errors in the same order if
they close their comments and both end in trivia or neither does.
-/
theorem codes_eq_of_landmarks (options : ParseOptions) (seed : OperatorTable) (left right : String)
    (aligned : Layout.landmarks options.tabWidth left =
      Layout.landmarks options.tabWidth right)
    (closedLeft : Layout.ClosesComments left) (closedRight : Layout.ClosesComments right)
    (ends : Layout.landmarks options.tabWidth left ≠ [] →
      Layout.endsInTrivia left = Layout.endsInTrivia right) :
    (withTable options seed left).errors.map Diagnostic.code =
      (withTable options seed right).errors.map Diagnostic.code := by
  have seen : Grammar.Aligned true
      (Grammar.Lexeme.group (Layout.tokens options.tabWidth left))
      (Grammar.Lexeme.group (Layout.tokens options.tabWidth right)) :=
    Grammar.aligned_of_landmarks aligned (fun _ => closedLeft) (fun _ => closedRight)
      fun _ => ends
  let job : Job := ⟨options, seed, fun _ => false, left⟩
  have agree : (job.parses seen).allRules.Agrees (fun _ => False) Grammar.wholeModule
      job.opening (job.on right).opening :=
    (job.poised_opening seen).agrees_wholeModule ⟨fun _ => rfl, Nat.succ_pos _⟩
  obtain ⟨sketch, sketchLeft, sketchRight⟩ := job.sketch?_eq_of_twins seen agree.twins
  have causes : (withTable options seed left).errors.map Diagnostic.cause =
      (withTable options seed right).errors.map Diagnostic.cause := by
    rw [errors, errors, withTable, withTable, Tree.causes_diagnostics sketchLeft,
      Tree.causes_diagnostics sketchRight]
  have codes := congrArg (List.map Cause.code) causes
  rw [List.map_map, List.map_map] at codes
  exact codes

theorem codes_eq_of_comments :
    Layout.landmarks 8 "--\nx=let y= " = Layout.landmarks 8 "x=let y=\n--" ∧
      Layout.endsInTrivia "--\nx=let y= " = Layout.endsInTrivia "x=let y=\n--" ∧
      (withTable {} .empty "--\nx=let y= ").errors.map Diagnostic.code =
        (withTable {} .empty "x=let y=\n--").errors.map Diagnostic.code := by
  have aligned :
      Layout.landmarks 8 "--\nx=let y= " = Layout.landmarks 8 "x=let y=\n--" := by
    decide +kernel
  have ends :
      Layout.endsInTrivia "--\nx=let y= " = Layout.endsInTrivia "x=let y=\n--" := by
    decide +kernel
  exact ⟨aligned, ends, codes_eq_of_landmarks {} .empty _ _ aligned (by decide +kernel)
    (by decide +kernel) fun _ => ends⟩

/-- A line end behind the last token moves the second of two reports to a place of its own. -/
theorem codes_ne_with_trailing_trivia :
    Layout.landmarks 8 "x=let y=" = Layout.landmarks 8 "x=let y=\n" ∧
      Layout.ClosesComments "x=let y=" ∧ Layout.ClosesComments "x=let y=\n" ∧
      (withTable {} .empty "x=let y=").errors.map Diagnostic.code = ["SyntaxError"] ∧
      (withTable {} .empty "x=let y=\n").errors.map Diagnostic.code =
        ["SyntaxError", "SyntaxError"] := by
  decide +kernel

end Parse

end Offside
