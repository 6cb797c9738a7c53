import Offside.Proofs.FixityReading
import Offside.Proofs.ModuleParts

/-!
# Fixities declared in order

Fixities are declared at the top level only, and every declaration leaves a
node.  So the declarations that have been read are those in the tree, in the
order of the tree, and the fixities that are kept while the text is read can be
read off the tree: the first declaration of an operator counts, and a later one
is reported if it says something else.
-/

namespace Offside.Grammar

open Offside.Tree (forestLeaves forestNodes)
open DeclaredFixity (first? ofNode?)

/-! ### Runs that declare nothing -/

/-- The second state goes on from the first without a declaration. -/
structure Silent (scene : Scene) (before after : State) : Prop where
  intact : Intact scene after
  retains : Retains scene before after
  nodes : fixityNodes (sheet scene after).1 = fixityNodes (sheet scene before).1
  tables : after.tables = before.tables

namespace Silent

variable {scene : Scene} {state first second third : State} {kind : NodeKind}

theorem trans (left : Silent scene first second) (right : Silent scene second third) :
    Silent scene first third where
  intact := right.intact
  retains := left.retains.trans right.retains
  nodes := right.nodes.trans left.nodes
  tables := right.tables.trans left.tables

theorem of_trail (intact : Intact scene first) (trail : second.trail = first.trail)
    (ahead : second.ahead = first.ahead) (tables : second.tables = first.tables) :
    Silent scene first second where
  intact := intact.of_trail trail ahead
  retains := retains_of_trail intact.opened trail
  nodes := by rw [sheet_of_trail trail ahead]
  tables := tables

theorem takeTrivia (intact : Intact scene state) :
    Silent scene state (state.takeTrivia scene.setting) := by
  cases found : state.ahead with
  | nil =>
    rw [State.takeTrivia, found]
    exact .of_trail intact rfl rfl rfl
  | cons lexeme rest =>
    obtain ⟨bare, -, junk, row, grafts, -⟩ := intact.takeTrivia (fun _ => false) found
    refine ⟨bare, retains_takeTrivia intact.opened scene.setting, ?_,
      tables_takeTrivia scene.setting state⟩
    rw [row, fixityNodes_append, grafts.fixityNodes, List.append_nil]

theorem bump (intact : Intact scene state) : Silent scene state (state.bump scene.setting) := by
  cases found : state.ahead with
  | nil =>
    rw [bump_of_ahead_nil scene.setting found]
    exact .of_trail intact rfl rfl rfl
  | cons lexeme rest =>
    obtain ⟨after, junk, row, grafts, -⟩ := intact.bump (fun _ => false) found
    refine ⟨after, retains_bump intact.opened scene.setting, ?_, tables_bump scene.setting state⟩
    rw [row, fixityNodes_append, fixityNodes_append, grafts.fixityNodes, List.append_nil]
    exact List.append_nil _

theorem finish (intact : Intact scene first) (other : kind ≠ .fixityDecl)
    (error : Option Diagnostic) (inside : Silent scene (first.mark .start) second) :
    Silent scene first (second.mark (.finish kind error)) := by
  obtain ⟨openedAt, closed⟩ := sheet_finish intact.opened inside.retains kind error
  have finished := inside.retains.finish intact.opened kind error
  have nodes := inside.nodes
  rw [sheet_start] at nodes
  refine ⟨inside.intact.mark nofun finished.opened, finished, ?_, inside.tables⟩
  rw [closed, fixityNodes_append, fixityNodes_ofChildren other, nodes]
  exact List.append_nil _

theorem abandon (intact : Intact scene first) (inside : Silent scene (first.mark .start) second) :
    Silent scene first (second.mark .abandon) := by
  have abandoned := inside.retains.abandon intact.opened
  have nodes := inside.nodes
  rw [sheet_start] at nodes
  refine ⟨inside.intact.mark nofun abandoned.opened, abandoned, ?_, inside.tables⟩
  rw [sheet_abandon intact.opened inside.retains, fixityNodes_append, nodes]
  exact List.append_nil _

theorem wrap (intact : Intact scene first) (other : kind ≠ .fixityDecl)
    (error : Option Diagnostic) (inside : Silent scene (first.mark (.precede 0)) second) :
    Silent scene first (second.mark (.finish kind error)) := by
  obtain ⟨outside, inner, openedAt, split, preceded, closed, -⟩ :=
    sheet_wrap intact.opened inside.retains kind error
  have wrapped := (inside.retains.wrap intact.opened kind error).1
  have nodes := inside.nodes
  rw [preceded] at nodes
  refine ⟨inside.intact.mark nofun wrapped.opened, wrapped, ?_, inside.tables⟩
  rw [closed, split, fixityNodes_append, fixityNodes_ofChildren other, nodes, fixityNodes_append]

theorem report (intact : Intact scene state) (cause : Cause) (expected : List TokenKind) :
    Silent scene state (state.report scene.setting cause expected) := by
  have opens : Silent scene (state.mark .start) (state.mark .start) :=
    .of_trail intact.start rfl rfl rfl
  have other : NodeKind.error ≠ .fixityDecl := nofun
  rw [State.report]
  split
  · exact .of_trail intact rfl rfl rfl
  · have reported := finish intact other
      (some (state.diagnose scene.setting cause expected)) opens
    exact reported.trans (.of_trail reported.intact rfl rfl rfl)

theorem blame (intact : Intact scene state) (cause : Cause) (found : Found) :
    Silent scene state (state.blame scene.setting cause found) := by
  have other : NodeKind.error ≠ .fixityDecl := nofun
  exact wrap intact other _ (.of_trail intact.precede rfl rfl rfl)

theorem step {α : Type} {script : Script α} (isStep : script.isStep = true)
    (rules : Rule → State → Bool × State) (intact : Intact scene state) :
    Silent scene state (script.run scene.setting rules state).2 := by
  cases script with
  | bump => exact bump intact
  | report cause expected => exact report intact cause expected
  | blame cause found => exact blame intact cause found
  | result | peek | search | position | insideBrackets | sighting | lookup | reportsUnknown
  | leave | forgetBrackets | poll => exact .of_trail intact rfl rfl rfl
  | deepen =>
    rw [Script.run]
    split <;> exact .of_trail intact rfl rfl rfl
  | andThen | fault | node | wrap | loop | call | declare => cases isStep

end Silent

theorem ne_fixityDecl_of_mayClose {kind : NodeKind} (allowed : mayClose false kind = true) :
    kind ≠ .fixityDecl := by
  rintro rfl
  cases allowed

variable {state : State}

theorem Runs.silent {scene : Scene} {declares : Bool} {entries : List Entry} {α : Type}
    {script : Script α} {after : State} {value : α}
    (runs : Runs scene.setting declares entries script state value after)
    (quiet : declares = false) (intact : Intact scene state) : Silent scene state after := by
  have other : NodeKind.error ≠ .fixityDecl := nofun
  induction runs with
  | step isStep rules state => exact .step isStep rules intact
  | declare allowed => exact absurd (allowed.symm.trans quiet) nofun
  | andThen _ _ ihFirst ihLater =>
    have first := ihFirst quiet intact
    exact first.trans (ihLater quiet first.intact)
  | fault _ ih =>
    have trivia := Silent.takeTrivia intact
    exact trivia.trans (.finish trivia.intact other _ (ih quiet trivia.intact.start))
  | node allowed _ ih =>
    have trivia := Silent.takeTrivia intact
    exact trivia.trans (.finish trivia.intact (ne_fixityDecl_of_mayClose (quiet ▸ allowed)) none
      (ih quiet trivia.intact.start))
  | abandon _ ih =>
    have trivia := Silent.takeTrivia intact
    exact trivia.trans (.abandon trivia.intact (ih quiet trivia.intact.start))
  | wrap allowed _ ih =>
    exact .wrap intact (ne_fixityDecl_of_mayClose (quiet ▸ allowed)) none
      (ih quiet intact.precede)
  | last _ ih => exact ih quiet intact
  | again _ _ _ ihOnce ihRest =>
    have once := ihOnce quiet intact
    exact once.trans (ihRest quiet once.intact)
  | call _ _ ih => exact ih rfl intact

/-! ### The declarations of a row of nodes -/

/--
The fixities that are kept while a text is read, and the reports of conflicts,
as the nodes of its declarations say.
-/
structure Ledger (scene : Scene) (nodes : List Tree)
    (tables : OperatorTable × OperatorTable) : Prop where
  drafted : ∀ node ∈ nodes, ∃ draft conflicting, node.Drafted draft conflicting
  declared : ∀ space operator, tables.1.stored? space operator =
    (first? (nodes.filterMap ofNode?) space operator).map DeclaredFixity.fixity
  operators : ∀ space operator, tables.2.stored? space operator =
    if scene.setting.declaresInOrder then
      ((first? (nodes.filterMap ofNode?) space operator).map DeclaredFixity.fixity).or
        (scene.table.stored? space operator)
    else scene.table.stored? space operator
  conflicts : ∀ before node after, nodes = before ++ node :: after →
    ∀ found ∈ ofNode? node, node.ReportsConflict found.operator ↔
      ∃ earlier ∈ first? (before.filterMap ofNode?) found.space found.operator,
        earlier.fixity ≠ found.fixity

namespace Ledger

variable {scene : Scene} {nodes : List Tree} {before after : State} {tree : Tree}
  {draft : FixityDraft} {conflicting : Bool}

theorem splits_concat {motive : List Tree → Tree → Prop}
    (early : ∀ before node after, nodes = before ++ node :: after → motive before node)
    (late : motive nodes tree) (before : List Tree) (node : Tree) (after : List Tree)
    (split : nodes ++ [tree] = before ++ node :: after) : motive before node := by
  rcases concat_eq_append_cons split with ⟨rest, isEarly, -⟩ | ⟨rfl, rfl, -⟩
  · exact early before node rest isEarly
  · exact late

theorem add_of_none (ledger : Ledger scene nodes before.tables)
    (drafted : tree.Drafted draft conflicting) (noDraft : ofNode? tree = none) :
    Ledger scene (nodes ++ [tree]) before.tables := by
  have same : (nodes ++ [tree]).filterMap ofNode? = nodes.filterMap ofNode? := by
    rw [List.filterMap_append, List.filterMap_cons_none noDraft]
    exact List.append_nil _
  refine ⟨List.forall_mem_append.mpr ⟨ledger.drafted, List.forall_mem_singleton.mpr
    ⟨draft, conflicting, drafted⟩⟩, ?_, ?_, splits_concat ledger.conflicts ?_⟩
  · rw [same]
    exact ledger.declared
  · rw [same]
    exact ledger.operators
  · intro found isFound
    rw [noDraft] at isFound
    cases isFound

section Declaring

variable {found : DeclaredFixity} (isFound : ofNode? tree = some found)
include isFound

theorem first?_concat (space : Namespace) (operator : String) :
    first? ((nodes ++ [tree]).filterMap ofNode?) space operator =
      (first? (nodes.filterMap ofNode?) space operator).or
        (if (found.space, found.operator) = (space, operator) then some found else none) := by
  rw [List.filterMap_append, DeclaredFixity.first?_append, List.filterMap_cons_some isFound,
    List.filterMap_nil, DeclaredFixity.first?_singleton]

theorem add_of_fresh (ledger : Ledger scene nodes before.tables)
    (drafted : tree.Drafted draft conflicting)
    (fresh : first? (nodes.filterMap ofNode?) found.space found.operator = none)
    (calm : ¬ tree.ReportsConflict found.operator) :
    Ledger scene (nodes ++ [tree])
      (before.declared.insert found.space found.operator found.fixity,
        if scene.setting.declaresInOrder then
          before.operators.insert found.space found.operator found.fixity
        else before.operators) := by
  have grown (space : Namespace) (operator : String) :
      (first? ((nodes ++ [tree]).filterMap ofNode?) space operator).map DeclaredFixity.fixity =
        if (found.space, found.operator) = (space, operator) then some found.fixity
        else (first? (nodes.filterMap ofNode?) space operator).map DeclaredFixity.fixity := by
    rw [first?_concat isFound]
    split
    · next same =>
        obtain ⟨rfl, rfl⟩ := Prod.mk.inj same
        rw [fresh]
        rfl
    · rw [Option.or_none]
  refine ⟨List.forall_mem_append.mpr ⟨ledger.drafted, List.forall_mem_singleton.mpr
    ⟨draft, conflicting, drafted⟩⟩, ?_, ?_, splits_concat ledger.conflicts ?_⟩
  · intro space operator
    rw [OperatorTable.stored?_insert, grown]
    exact if_congr Iff.rfl rfl (ledger.declared space operator)
  · intro space operator
    have kept := ledger.operators space operator
    by_cases inOrder : scene.setting.declaresInOrder = true
    · rw [if_pos inOrder] at kept
      rw [if_pos inOrder, OperatorTable.stored?_insert, grown]
      split
      · rfl
      · exact kept
    · rw [if_neg inOrder] at kept
      rw [if_neg inOrder, if_neg inOrder]
      exact kept
  · intro other isOther
    cases isFound.symm.trans isOther
    rw [fresh]
    exact iff_of_false calm nofun

/-- A later declaration of an operator changes nothing, and it is reported if it differs. -/
theorem add_of_earlier (ledger : Ledger scene nodes before.tables)
    (drafted : tree.Drafted draft conflicting) {earlier : DeclaredFixity}
    (isEarlier : first? (nodes.filterMap ofNode?) found.space found.operator = some earlier)
    (reports : tree.ReportsConflict found.operator ↔ earlier.fixity ≠ found.fixity) :
    Ledger scene (nodes ++ [tree]) before.tables := by
  have same (space : Namespace) (operator : String) :
      first? ((nodes ++ [tree]).filterMap ofNode?) space operator =
        first? (nodes.filterMap ofNode?) space operator := by
    rw [first?_concat isFound]
    split
    · next same =>
        obtain ⟨rfl, rfl⟩ := Prod.mk.inj same
        rw [isEarlier]
        rfl
    · rw [Option.or_none]
  refine ⟨List.forall_mem_append.mpr ⟨ledger.drafted, List.forall_mem_singleton.mpr
    ⟨draft, conflicting, drafted⟩⟩, ?_, ?_, splits_concat ledger.conflicts ?_⟩
  · intro space operator
    rw [same]
    exact ledger.declared space operator
  · intro space operator
    rw [same]
    exact ledger.operators space operator
  · intro other isOther
    cases isFound.symm.trans isOther
    rw [isEarlier, reports]
    exact ⟨fun differs => ⟨earlier, rfl, differs⟩, fun ⟨_, same, differs⟩ => by
      cases same
      exact differs⟩

end Declaring

theorem add (ledger : Ledger scene nodes before.tables) (drafted : tree.Drafted draft conflicting)
    (enacts : Enacts scene.setting before conflicting after draft.declared?) :
    Ledger scene (nodes ++ [tree]) after.tables := by
  cases declares : draft.declared? with
  | none =>
    rw [declares] at enacts
    rw [enacts.2]
    exact ledger.add_of_none drafted (drafted.ofNode?.trans declares)
  | some found =>
    have isFound := drafted.ofNode?.trans declares
    obtain ⟨operator, isOperator, named⟩ := draft.mem_operator_of_declared? declares
    have reports := drafted.conflicts operator isOperator
    have stored := ledger.declared found.space found.operator
    rw [named] at reports
    rw [declares] at enacts
    obtain ⟨conflicts, tables⟩ := enacts
    rw [State.declare, show before.declared.stored? _ _ = _ from stored] at conflicts tables
    rw [tables]
    cases earlier : first? _ found.space found.operator with
    | none =>
      rw [earlier] at conflicts
      refine ledger.add_of_fresh isFound drafted earlier ?_
      rw [reports, show conflicting = false from conflicts]
      exact Bool.false_ne_true
    | some previous =>
      rw [earlier] at conflicts
      refine ledger.add_of_earlier isFound drafted earlier ?_
      rw [reports, show conflicting = decide (previous.fixity ≠ found.fixity) from conflicts,
        decide_eq_true_eq]

end Ledger

/-! ### The top level -/

/-- The fixities are those that the nodes finished so far declare. -/
structure Recorded (scene : Scene) (total : Nat) (state : State) : Prop where
  total : state.position + state.ahead.length = total
  timely : Timely state
  intact : Intact scene state
  ledger : Ledger scene (fixityNodes (sheet scene state).1) state.tables

section TopLevel

variable {scene : Scene} {total : Nat} {outlook : Outlook} {α : Type}

theorem timely_execute (script : Script α) (timely : Timely state) :
    Timely (script.execute scene.setting state).2 :=
  (Timely.steps scene.setting).run ((Timely.steps scene.setting).runRule _) script state timely

theorem Recorded.fixityDecl (recorded : Recorded scene total state) {associativity : Associativity}
    (declares : DeclaredFixity.associativity? (kindAhead scene state 0) = some associativity) :
    Recorded scene total ((fixityDecl associativity).execute scene.setting state).2 := by
  obtain ⟨junk, tree, draft, conflicting, errors, drafted, intact, row, enacts⟩ :=
    drafted_fixityDecl recorded.intact recorded.timely declares
  refine ⟨(consumes_execute _ state).total.trans recorded.total,
    timely_execute _ recorded.timely, intact, ?_⟩
  rw [Script.execute, row, fixityNodes_append, fixityNodes_append, fixityNodes_of_error errors,
    List.append_nil, fixityNodes_of_drafted drafted]
  exact recorded.ledger.add drafted enacts

theorem ModulePart.silent (enough : total < scene.setting.rounds) {script : Script α}
    (part : ModulePart outlook script) (recorded : Recorded scene total state)
    (holds : outlook.Holds scene state) :
    Silent scene state (script.execute scene.setting state).2 := by
  have completing : Completing (outermost scene false total enough) 5 outlook script :=
    part.completing
  have ready : (outermost scene false total enough).Ready 5 state := ⟨recorded.total, nofun⟩
  exact (completing.completes state ready holds).silent rfl recorded.intact

theorem ModulePart.recorded (enough : total < scene.setting.rounds) {script : Script α}
    (part : ModulePart outlook script) : Upholds scene (Recorded scene total) outlook script := by
  intro state recorded holds
  have silent := part.silent enough recorded holds
  refine ⟨(consumes_execute script state).total.trans recorded.total,
    timely_execute script recorded.timely, silent.intact, ?_⟩
  rw [silent.nodes, silent.tables]
  exact recorded.ledger

end TopLevel

end Offside.Grammar

namespace Offside

namespace Job

open Grammar

variable (job : Job)

theorem opening_recorded : Recorded job.scene (Lexeme.group job.tokens).length job.opening := by
  have pending := job.flatMap_tokens_opening
  refine ⟨Nat.zero_add _, ⟨?_, ?_, nofun⟩, job.opening_intact, ?_⟩
  · rw [pending]
    exact Layout.laid_tokens job.options.tabWidth job.source
  · rw [pending]
    exact Layout.text_ne_empty_of_isSignificant job.options.tabWidth job.source
  · refine ⟨?_, fun _ _ => rfl, fun space operator => ?_, ?_⟩
    · exact List.forall_mem_nil _
    · show _ = if _ then Option.or none _ else _
      rw [Option.none_or, ite_self]
      rfl
    · intro before node after split
      exact absurd split.symm (List.append_ne_nil_of_right_ne_nil before (List.cons_ne_nil _ _))

theorem ending_recorded : Recorded job.scene (Lexeme.group job.tokens).length job.ending.2 :=
  Upholds.wholeModule (fun part => part.recorded (Nat.lt_add_of_pos_right (by decide)))
    (fun _ _ recorded declares => recorded.fixityDecl declares) job.opening
    job.opening_recorded (Outlook.holds_none _)

theorem filter_descendants_root_run :
    job.run.parse.root.descendants.filter (Tree.isOfKind .fixityDecl) =
      fixityNodes (sheet job.scene job.ending.2).1 := by
  obtain ⟨span, children, nodes⟩ := job.descendants_root_run
  rw [nodes, List.filter_cons_of_neg (by exact Bool.false_ne_true), shown_ending, fixityNodes,
    sheet]

end Job

namespace Parse

open DeclaredFixity (first? ofNode? isOfKind_of_ofTree? isOfKind_of_ofNode?
  filterMap_ofNode?_filter)

/--
Fixities can be read off the tree.  A declaration counts if its view has an
operator and a precedence.  If fixities count from their declaration on, those
that are returned are the ones given, with the first declaration of each
operator in the tree in the place of what was given for it.  And whether or not
they do, the operator of a declaration that counts is reported to be in conflict
if and only if the first declaration of the operator that counts stands in front
of it and has another fixity.
-/
theorem fixities_read_off_tree (options : ParseOptions) (seed : OperatorTable)
    (isCancelled : Nat → Bool) (source : String) :
    (∀ node ∈ (run options seed isCancelled source).parse.root.descendants,
      ∀ view ∈ View.FixityDecl.ofTree? node,
        (ofNode? node).isSome = (view.operator.isSome && view.precedence.isSome)) ∧
    (options.collectsFixities = false → ∀ space operator,
      (run options seed isCancelled source).parse.operators.stored? space operator =
        ((first? (run options seed isCancelled source).parse.root.declaredFixities space
          operator).map DeclaredFixity.fixity).or (seed.stored? space operator)) ∧
    ∀ before node after,
      (run options seed isCancelled source).parse.root.descendants = before ++ node :: after →
      ∀ found ∈ ofNode? node, node.ReportsConflict found.operator ↔
        ∃ earlier ∈ first? (before.filterMap ofNode?) found.space found.operator,
          earlier.fixity ≠ found.fixity := by
  let job : Job := ⟨options, seed, isCancelled, source⟩
  obtain ⟨-, -, -, ledger⟩ := job.ending_recorded
  rw [← job.filter_descendants_root_run] at ledger
  refine ⟨fun node member view isView => ?_, fun inOrder space operator => ?_,
    fun before node after split found isFound => ?_⟩
  · have isDecl := isOfKind_of_ofTree? isView
    obtain ⟨draft, conflicting, drafted⟩ :=
      ledger.drafted node (List.mem_filter.mpr ⟨member, isDecl⟩)
    exact drafted.isSome_ofNode? isView
  · have kept := ledger.operators space operator
    have counts : job.scene.setting.declaresInOrder = true := congrArg (!·) inOrder
    have given : job.scene.table = seed := if_neg (by rw [inOrder]; exact Bool.false_ne_true)
    rw [filterMap_ofNode?_filter, if_pos counts, given] at kept
    rw [Tree.declaredFixities, ← kept, job.operators_run]
    rfl
  · have isDecl := isOfKind_of_ofNode? isFound
    have among := ledger.conflicts (before.filter (Tree.isOfKind .fixityDecl)) node
      (after.filter (Tree.isOfKind .fixityDecl))
      (by rw [split, List.filter_append, List.filter_cons_of_pos isDecl])
    rw [filterMap_ofNode?_filter] at among
    exact among found isFound

/-- Of two declarations that contradict each other the first counts, and the second is reported. -/
theorem fixities_read_off_tree_twice :
    let parse := (run { collectsFixities := false } .standard (fun _ => false)
      "infixl 1 a as +\ninfixr 2 b as +").parse
    parse.operators.stored? .value "+" = some ⟨.left, 1⟩ ∧
      ∃ node ∈ parse.root.descendants, node.ReportsConflict "+" ∧
        ∃ view ∈ View.FixityDecl.ofTree? node,
          (view.operator.isSome && view.precedence.isSome) = true := by
  intro parse
  obtain ⟨counts, stored, conflicts⟩ := fixities_read_off_tree { collectsFixities := false }
    .standard (fun _ => false) "infixl 1 a as +\ninfixr 2 b as +"
  have third : parse.root.descendants[2]?.bind ofNode? =
      some ⟨.value, "+", ⟨.right, 2⟩, 16⟩ := by decide +kernel
  obtain ⟨node, isNode, declares⟩ := Option.bind_eq_some_iff.mp third
  obtain ⟨long, rfl⟩ := List.getElem?_eq_some_iff.mp isNode
  have split : parse.root.descendants = parse.root.descendants.take 2 ++
      parse.root.descendants[2] :: parse.root.descendants.drop 3 := by
    rw [List.getElem_cons_drop, List.take_append_drop]
  have earlier : first? ((parse.root.descendants.take 2).filterMap ofNode?) .value "+" =
      some ⟨.value, "+", ⟨.left, 1⟩, 0⟩ := by decide +kernel
  obtain ⟨view, isView, -⟩ := Option.bind_eq_some_iff.mp declares
  have isSome := counts _ (List.getElem_mem long) view isView
  rw [declares] at isSome
  exact ⟨(stored rfl .value "+").trans (by decide +kernel), _, List.getElem_mem long,
    (conflicts _ _ _ split _ declares).mpr ⟨_, earlier, by decide⟩, view, isView, isSome.symm⟩

end Parse

end Offside
