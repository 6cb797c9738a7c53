import Offside.Proofs.FixityDrafts

/-!
# How fixity declarations are read

A fixity declaration is read token by token, and what is missing is reported.
Whatever is ahead, the node that is closed holds the tokens of a declaration as
far as they are there.  Something is reported in it if one of them is missing:
a report is dropped only at the place of an earlier one, and the keyword has
been taken since.
-/

namespace Offside.Grammar

open Offside.Tree (forestLeaves forestNodes)
open DeclaredFixity (scanned)

/-! ### Places of reports -/

/--
The tokens ahead begin at the place reached, those that a scan looks at have
text, and nothing has been reported behind that place.
-/
structure Timely (state : State) : Prop where
  laid : Token.Laid state.reached (state.ahead.flatMap Lexeme.tokens)
  spelled : ∀ token ∈ state.ahead.flatMap Lexeme.tokens,
    token.kind.isSignificant = true → token.text ≠ ""
  recent : ∀ offset ∈ state.lastReport, offset ≤ state.reached

variable {other : State} {row : List Tree} {allowed : TokenKind → Bool} {lexeme : Lexeme}
  {rest : List Lexeme} {associativity : Associativity}

namespace Timely

variable {state : State} {lexeme : Lexeme} {rest : List Lexeme}

theorem of_eq (timely : Timely state) (ahead : other.ahead = state.ahead)
    (reached : other.reached = state.reached) (report : other.lastReport = state.lastReport) :
    Timely other where
  laid := by
    rw [ahead, reached]
    exact timely.laid
  spelled := by
    rw [ahead]
    exact timely.spelled
  recent := by
    rw [report, reached]
    exact timely.recent

theorem takeTrivia (setting : Setting) (timely : Timely state) :
    Timely (state.takeTrivia setting) := by
  cases found : state.ahead with
  | nil =>
    rw [State.takeTrivia, found]
    exact timely
  | cons lexeme rest =>
    obtain ⟨laid, spelled, recent⟩ := timely
    rw [found, List.flatMap_cons, Lexeme.tokens, List.append_assoc] at laid spelled
    rw [Token.laid_append] at laid
    have place := reached_foldl_takeTrivium setting lexeme.trivia laid.1
    obtain ⟨trail, reached, taken⟩ : ∃ trail reached,
        lexeme.trivia.foldl (State.takeTrivium setting) state =
          { state with trail, reached } := foldl_takeTrivium_eq setting lexeme.trivia
    rw [taken] at place
    rw [takeTrivia_of_cons setting found, taken]
    refine ⟨?_, fun token member => spelled token (List.mem_append_right _ member), ?_⟩
    · rw [show reached = _ from place]
      exact laid.2
    · intro offset member
      rw [show reached = _ from place]
      exact Nat.le_add_right_of_le (recent offset member)

theorem reached_bump (setting : Setting) (timely : Timely state)
    (found : state.ahead = lexeme :: rest) :
    Timely (state.bump setting) ∧ ∀ offset ∈ (state.bump setting).lastReport,
      offset + lexeme.token.text.utf8ByteSize ≤ (state.bump setting).reached := by
  obtain ⟨laid, spelled, recent⟩ := timely.takeTrivia setting
  have ahead : (state.takeTrivia setting).ahead = { lexeme with trivia := [] } :: rest := by
    rw [takeTrivia_of_cons setting found]
  rw [ahead] at laid spelled
  obtain ⟨own, later⟩ := laid
  have stop : lexeme.token.span.stop =
      (state.takeTrivia setting).reached + lexeme.token.text.utf8ByteSize := by
    rw [own]
  rw [← stop] at later
  rw [bump_of_cons setting found]
  have behind : ∀ offset ∈ (state.takeTrivia setting).lastReport,
      offset + lexeme.token.text.utf8ByteSize ≤ lexeme.token.span.stop := by
    intro offset member
    rw [stop]
    exact Nat.add_le_add_right (recent offset member) _
  exact ⟨⟨later, fun token member => spelled token (List.mem_append_right _ member),
    fun offset member => Nat.le_trans (Nat.le_add_right _ _) (behind offset member)⟩, behind⟩

theorem bump (setting : Setting) (timely : Timely state) : Timely (state.bump setting) := by
  cases found : state.ahead with
  | nil =>
    rw [bump_of_ahead_nil setting found]
    exact timely
  | cons lexeme rest => exact (timely.reached_bump setting found).1

/-- Once a token with text has been taken, nothing has been reported at the place reached. -/
theorem not_hasReported_bump (setting : Setting) (timely : Timely state)
    (found : state.ahead = lexeme :: rest) (significant : lexeme.token.kind.isSignificant = true) :
    ¬ (state.bump setting).HasReported := by
  have hasText : lexeme.token.text ≠ "" := by
    refine timely.spelled lexeme.token ?_ significant
    rw [found]
    exact List.mem_append_left _ (List.mem_append_right _ List.mem_cons_self)
  intro here
  have behind := (timely.reached_bump setting found).2 _ here
  have size : lexeme.token.text.utf8ByteSize ≠ 0 := mt String.utf8ByteSize_eq_zero_iff.mp hasText
  omega

theorem report (setting : Setting) (cause : Cause) (expected : List TokenKind)
    (timely : Timely state) : Timely (state.report setting cause expected) := by
  rw [State.report]
  split
  · exact timely
  · refine ⟨timely.laid, timely.spelled, fun offset member => ?_⟩
    split at member
    · rw [← Option.some.inj member]
      exact Nat.le_refl _
    · exact timely.recent offset member

theorem steps (setting : Setting) :
    RelatesSteps setting fun before after => Timely before → Timely after where
  refl _ := id
  trans first second := second ∘ first
  takeTrivia _ := takeTrivia setting
  bump _ := bump setting
  mark _ _ timely := timely.of_eq rfl rfl rfl
  report cause expected _ := report setting cause expected
  declare space operator fixity state timely := by
    obtain ⟨operators, declared, done⟩ := declare_eq setting state space operator fixity
    rw [done]
    exact timely.of_eq rfl rfl rfl
  deepen _ _ timely := timely.of_eq rfl rfl rfl
  leave _ timely := timely.of_eq rfl rfl rfl
  forget _ _ timely := timely.of_eq rfl rfl rfl
  poll _ _ timely := timely.of_eq rfl rfl rfl

end Timely

/-! ### Nodes of declarations in a row -/

def fixityNodes (row : List Tree) : List Tree :=
  (forestNodes row).filter (Tree.isOfKind .fixityDecl)

@[simp]
theorem fixityNodes_append (left right : List Tree) :
    fixityNodes (left ++ right) = fixityNodes left ++ fixityNodes right := by
  rw [fixityNodes, Tree.forestNodes_append, List.filter_append, fixityNodes, fixityNodes]

theorem fixityNodes_ofChildren {kind : NodeKind} (other : kind ≠ .fixityDecl)
    (error : Option Diagnostic) (openedAt : Nat) (children : List Tree) :
    fixityNodes [.ofChildren kind error openedAt children] = fixityNodes children := by
  have notDecl : (Tree.ofChildren kind error openedAt children).isOfKind .fixityDecl = false :=
    decide_eq_false fun same => other (Option.some.inj same)
  rw [fixityNodes, forestNodes, forestNodes, List.append_nil, Tree.ofChildren, Tree.nodes,
    List.filter_cons_of_neg (by rw [← Tree.ofChildren, notDecl]; exact Bool.false_ne_true),
    fixityNodes]

theorem fixityNodes_of_error (errors : ∀ node ∈ forestNodes row, node.kind? = some .error) :
    fixityNodes row = [] := by
  rw [fixityNodes, List.filter_eq_nil_iff]
  intro node member
  rw [Tree.isOfKind, errors node member]
  exact Bool.false_ne_true

/-- The node reports something other than that fixities contradict each other. -/
def IsCalm (node : Tree) : Prop :=
  node.kind? = some .error ∧ ∀ diagnostic ∈ node.error?, ∀ operator,
    diagnostic.cause ≠ .fixity (.conflictingFixity operator)

theorem Grafts.isCalm {sourceLength : Nat} {pending left : List Token}
    (grafts : Grafts sourceLength allowed pending row left) :
    ∀ node ∈ forestNodes row, IsCalm node := by
  induction grafts with
  | done => exact List.forall_mem_nil _
  | leaf _ _ _ ih => exact ih
  | fault openedAt hidden named _ _ ih =>
    refine List.forall_mem_cons.mpr ⟨⟨rfl, ?_⟩, ih⟩
    rintro _ ⟨rfl⟩ operator isFixity
    rw [show Diagnostic.cause _ = Cause.fixity _ from isFixity] at named
    revert named
    unfold State.triviaCause?
    split <;> nofun

theorem Grafts.fixityNodes {sourceLength : Nat} {pending left : List Token}
    (grafts : Grafts sourceLength allowed pending row left) : fixityNodes row = [] :=
  fixityNodes_of_error fun node member => (grafts.isCalm node member).1

/-! ### Declarations that are being read -/

/--
The open node, which was opened in the first state, holds the tokens and
otherwise only blanks and reports.  If there are gaps, there are reports.
-/
structure Begun (scene : Scene) (start : State) (tokens : List Token) (gaps : Prop)
    (state : State) : Prop where
  intact : Intact scene state
  timely : Timely state
  retains : Retains scene start state
  direct : scanned ((sheet scene state).1.filterMap Tree.token?) = tokens
  leaves : scanned (forestLeaves (sheet scene state).1) = tokens
  calm : ∀ node ∈ forestNodes (sheet scene state).1, IsCalm node
  gap : gaps → forestNodes (sheet scene state).1 ≠ []

/-- What has been reported at the place reached has been reported in the open node. -/
structure Ongoing (scene : Scene) (start : State) (tokens : List Token) (gaps : Prop)
    (state : State) : Prop extends Begun scene start tokens gaps state where
  noted : state.HasReported → forestNodes (sheet scene state).1 ≠ []

variable {scene : Scene} {start state : State} {tokens : List Token} {gaps : Prop}

theorem scanned_eq_nil {tokens : List Token}
    (hidden : ∀ token ∈ tokens, token.kind.isVisible = false) : scanned tokens = [] := by
  rw [scanned, List.filter_eq_nil_iff]
  intro token member significant
  have visible := isVisible_of_isSignificant significant
  rw [hidden token member] at visible
  cases visible

theorem mem_forestLeaves_of_token? {token : Token} (member : token ∈ row.filterMap Tree.token?) :
    token ∈ forestLeaves row := by
  induction row with
  | nil => cases member
  | cons tree rest ih =>
    cases tree with
    | leaf other =>
      rcases List.mem_cons.mp member with rfl | later
      · exact List.mem_cons_self
      · exact List.mem_cons_of_mem _ (ih later)
    | node => exact List.mem_append_right _ (ih member)

theorem ahead_of_isSignificant
    (significant : (state.current scene.setting).kind.isSignificant = true) :
    ∃ lexeme rest, state.ahead = lexeme :: rest ∧
      state.current scene.setting = lexeme.token := by
  refine ahead_of_kindAhead fun isEnd => ?_
  rw [show (state.current scene.setting).kind = .eof from isEnd] at significant
  cases significant

theorem Intact.hidden_junk (intact : Intact scene state) (found : state.ahead = lexeme :: rest)
    {junk : List Tree}
    (grafts : Grafts scene.setting.sourceLength allowed (sheet scene state).2 junk
      (lexeme.token :: rest.flatMap Lexeme.tokens)) :
    ∀ token ∈ forestLeaves junk, token.kind.isVisible = false := by
  have leaves := grafts.leaves
  rw [sheet, found, List.flatMap_cons, Lexeme.tokens, List.append_assoc] at leaves
  rw [List.append_cancel_right leaves]
  exact (intact.seen lexeme (by rw [found]; exact List.mem_cons_self)).2

theorem begun_entered (intact : Intact scene state) (timely : Timely state) :
    Begun scene (entered scene state) [] False (entered scene state) where
  intact := (Constructs.takeTrivia intact false).intact.start
  timely := (timely.takeTrivia scene.setting).of_eq rfl rfl rfl
  retains := .refl (opened_start _)
  direct := by rw [entered, sheet_start]; rfl
  leaves := by rw [entered, sheet_start]; rfl
  calm := by
    rw [entered, sheet_start]
    exact List.forall_mem_nil _
  gap := False.elim

namespace Begun

variable (begun : Begun scene start tokens gaps state)
include begun

theorem bump (found : state.ahead = lexeme :: rest)
    (significant : lexeme.token.kind.isSignificant = true) :
    Ongoing scene start (tokens ++ [lexeme.token]) gaps (state.bump scene.setting) := by
  obtain ⟨intact, junk, row, grafts, -⟩ := begun.intact.bump (fun _ => false) found
  have hidden := begun.intact.hidden_junk found grafts
  have blank : scanned (junk.filterMap Tree.token?) = [] :=
    scanned_eq_nil fun token member => hidden token (mem_forestLeaves_of_token? member)
  have own : scanned [lexeme.token] = [lexeme.token] :=
    DeclaredFixity.scanned_cons_of_pos significant []
  refine ⟨⟨intact, begun.timely.bump scene.setting,
    begun.retains.trans (retains_bump begun.intact.opened scene.setting), ?_, ?_, ?_, ?_⟩,
    fun here => absurd here (begun.timely.not_hasReported_bump scene.setting found significant)⟩
  · rw [row, List.filterMap_append, List.filterMap_append, DeclaredFixity.scanned_append,
      DeclaredFixity.scanned_append, begun.direct, blank, List.append_nil]
    exact congrArg _ own
  · rw [row, Tree.forestLeaves_append, Tree.forestLeaves_append, DeclaredFixity.scanned_append,
      DeclaredFixity.scanned_append, begun.leaves, scanned_eq_nil hidden, List.append_nil]
    exact congrArg _ own
  · rw [row, Tree.forestNodes_append, Tree.forestNodes_append, List.append_assoc]
    refine List.forall_mem_append.mpr ⟨begun.calm, List.forall_mem_append.mpr
      ⟨grafts.isCalm, List.forall_mem_nil _⟩⟩
  · intro broken nothing
    rw [row, Tree.forestNodes_append, Tree.forestNodes_append, List.append_assoc] at nothing
    exact begun.gap broken (List.append_eq_nil_iff.mp nothing).1

end Begun

theorem sheet_report (intact : Intact scene state) (fresh : ¬ state.HasReported)
    (expected : List TokenKind) :
    ∃ openedAt diagnostic, diagnostic.cause = .syntactic ∧
      sheet scene (state.report scene.setting .syntactic expected) =
        ((sheet scene state).1 ++ [.ofChildren .error (some diagnostic) openedAt []],
          (sheet scene state).2) := by
  have differs : ¬ ((decide (Cause.syntactic = .syntactic) &&
      decide (state.lastReport = some state.reached)) = true) := by
    simpa [State.HasReported] using fresh
  rw [State.report, if_neg differs]
  obtain ⟨openedAt, row⟩ := sheet_finish intact.opened (.refl (opened_start state)) .error
    _
  rw [sheet_start] at row
  exact ⟨openedAt, _, rfl, row⟩

theorem Ongoing.report (ongoing : Ongoing scene start tokens gaps state)
    (expected : List TokenKind) {more : Prop} :
    Ongoing scene start tokens more (state.report scene.setting .syntactic expected) := by
  by_cases repeats : state.HasReported
  · have same : state.report scene.setting .syntactic expected = state := by
      rw [State.report, if_pos (by simpa [State.HasReported] using repeats)]
    rw [same]
    exact { ongoing with gap := fun _ => ongoing.noted repeats }
  have intact : Intact scene (state.report scene.setting .syntactic expected) :=
    (@Constructs.report scene state false ongoing.intact expected).intact
  obtain ⟨openedAt, diagnostic, isCause, row⟩ := sheet_report ongoing.intact repeats expected
  have nodes : forestNodes (sheet scene (state.report scene.setting .syntactic expected)).1 =
      forestNodes (sheet scene state).1 ++ [.ofChildren .error (some diagnostic) openedAt []] := by
    rw [row, Tree.forestNodes_append]
    rfl
  have something : forestNodes (sheet scene (state.report scene.setting .syntactic expected)).1 ≠
      [] := by
    rw [nodes]
    exact List.append_ne_nil_of_right_ne_nil _ (List.cons_ne_nil _ _)
  refine ⟨⟨intact, ongoing.timely.report scene.setting .syntactic expected,
    ongoing.retains.trans (retains_report ongoing.intact.opened scene.setting .syntactic expected),
    ?_, ?_, ?_, fun _ => something⟩, fun _ => something⟩
  · rw [row, List.filterMap_append, DeclaredFixity.scanned_append, ongoing.direct]
    exact List.append_nil tokens
  · rw [row, Tree.forestLeaves_append, DeclaredFixity.scanned_append, ongoing.leaves]
    exact List.append_nil tokens
  · rw [nodes]
    refine List.forall_mem_append.mpr ⟨ongoing.calm, List.forall_mem_singleton.mpr ⟨rfl, ?_⟩⟩
    rintro _ ⟨rfl⟩ operator
    rw [show Diagnostic.cause _ = Cause.syntactic from isCause]
    rintro ⟨⟩

def ahead? (scene : Scene) (test : Token → Bool) (state : State) : Option Token :=
  (some (state.current scene.setting)).filter test

def offered (scene : Scene) (test : Token → Bool) (state : State) : State :=
  if test (state.current scene.setting) = true then state.bump scene.setting else state

/-- The state after a token that must be there, or after the report that it is missing. -/
def demanded (scene : Scene) (test : Token → Bool) (expected : List TokenKind) (state : State) :
    State :=
  if test (state.current scene.setting) = true then state.bump scene.setting
  else state.report scene.setting .syntactic expected

section Parts

variable {test : Token → Bool}

theorem test_of_mem_ahead? {token : Token} (member : token ∈ ahead? scene test state) :
    test token = true :=
  (Option.filter_eq_some_iff.mp member).2

theorem ahead?_of_pos (passes : test (state.current scene.setting) = true) :
    ahead? scene test state = some (state.current scene.setting) :=
  Option.filter_some_pos passes

theorem ahead?_of_neg (fails : ¬ test (state.current scene.setting) = true) :
    ahead? scene test state = none :=
  Option.filter_some_neg (Bool.eq_false_of_not_eq_true fails)

variable (accepts : ∀ token, test token = true → token.kind.isSignificant = true)
include accepts

theorem Begun.take (begun : Begun scene start tokens gaps state)
    (passes : test (state.current scene.setting) = true) :
    Ongoing scene start (tokens ++ (ahead? scene test state).toList) gaps
      (state.bump scene.setting) := by
  have significant := accepts _ passes
  obtain ⟨lexeme, rest, found, current⟩ := ahead_of_isSignificant significant
  rw [ahead?_of_pos passes, current]
  rw [current] at significant
  exact begun.bump found significant

theorem Ongoing.offer (ongoing : Ongoing scene start tokens gaps state) :
    Ongoing scene start (tokens ++ (ahead? scene test state).toList) gaps
      (offered scene test state) := by
  rw [offered]
  split
  · next passes => exact ongoing.toBegun.take accepts passes
  · next fails =>
      rw [ahead?_of_neg fails, Option.toList_none, List.append_nil]
      exact ongoing

theorem Ongoing.demand (ongoing : Ongoing scene start tokens gaps state)
    (expected : List TokenKind) :
    Ongoing scene start (tokens ++ (ahead? scene test state).toList)
      (gaps ∨ ahead? scene test state = none) (demanded scene test expected state) := by
  rw [demanded]
  split
  · next passes =>
      have taken := ongoing.toBegun.take accepts passes
      refine { taken with gap := fun broken => taken.gap (broken.resolve_right ?_) }
      rw [ahead?_of_pos passes]
      exact Option.some_ne_none _
  · next fails =>
      rw [ahead?_of_neg fails, Option.toList_none, List.append_nil]
      exact ongoing.report expected

end Parts

/-! ### Operators of declarations -/

/--
The open node holds the tokens and then the operator, if it is there, which may
stand in a node that reports a conflict.
-/
structure Concluded (scene : Scene) (start : State) (tokens : List Token)
    (operator : Option Token) (conflicting : Bool) (gaps : Prop) (state : State) : Prop where
  intact : Intact scene state
  retains : Retains scene start state
  direct : scanned ((sheet scene state).1.filterMap Tree.token?) =
    tokens ++ if conflicting = true then [] else operator.toList
  leaves : scanned (forestLeaves (sheet scene state).1) = tokens ++ operator.toList
  errors : ∀ node ∈ forestNodes (sheet scene state).1, node.kind? = some .error
  gap : gaps → forestNodes (sheet scene state).1 ≠ []
  conflicts : ∀ token ∈ operator, ∀ openedAt,
    ((Tree.ofChildren .fixityDecl none openedAt (sheet scene state).1).ReportsConflict token.text ↔
      conflicting = true)

theorem Ongoing.concluded {operator : Option Token}
    (ongoing : Ongoing scene start (tokens ++ operator.toList) gaps state) :
    Concluded scene start tokens operator false gaps state where
  intact := ongoing.intact
  retains := ongoing.retains
  direct := ongoing.direct
  leaves := ongoing.leaves
  errors node member := (ongoing.calm node member).1
  gap := ongoing.gap
  conflicts token _ openedAt := by
    refine iff_of_false ?_ Bool.false_ne_true
    rintro ⟨child, member, _, _, _, _, _, diagnostic, isError, isConflict⟩
    cases child with
    | leaf => cases isError
    | node kind span error children =>
      have inNodes : Tree.node kind span error children ∈
          forestNodes (sheet scene state).1 := by
        obtain ⟨front, back, split⟩ := List.append_of_mem member
        rw [show (sheet scene state).1 = _ from split, Tree.forestNodes_append]
        exact List.mem_append_right _ List.mem_cons_self
      exact (ongoing.calm _ inNodes).2 diagnostic isError _ isConflict

variable {rules : Rule → State → Bool × State}

theorem Intact.fault_bump (intact : Intact scene state) (found : state.ahead = lexeme :: rest)
    (cause : Cause) :
    ∃ junk openedAt diagnostic, diagnostic.cause = cause ∧
      Grafts scene.setting.sourceLength (fun _ => false) (sheet scene state).2 junk
        (lexeme.token :: rest.flatMap Lexeme.tokens) ∧
      (sheet scene ((Script.fault cause [] Script.bump).run scene.setting rules state).2).1 =
        (sheet scene state).1 ++ junk ++
          [.ofChildren .error (some diagnostic) openedAt [.leaf lexeme.token]] ∧
      Intact scene ((Script.fault cause [] Script.bump).run scene.setting rules state).2 ∧
      Retains scene state
        ((Script.fault cause [] Script.bump).run scene.setting rules state).2 := by
  obtain ⟨bare, ahead, junk, row, grafts, -⟩ := intact.takeTrivia _ found
  have pending : (sheet scene (state.takeTrivia scene.setting)).2 =
      lexeme.token :: rest.flatMap Lexeme.tokens := by
    rw [sheet, ahead]
    rfl
  obtain ⟨taken, noTrivia, children, -, length⟩ := bare.start.bump (fun _ => false) ahead
  rw [List.length_eq_zero_iff.mp length, sheet_start] at children
  have inside := @retains_bump scene ((state.takeTrivia scene.setting).mark .start)
    (opened_start _) scene.setting
  rw [Script.run, Script.run]
  dsimp only
  generalize isDiagnostic : State.resume scene.setting _ _ = diagnostic
  have isCause : diagnostic.cause = cause := by
    rw [← isDiagnostic]
    rfl
  obtain ⟨openedAt, closed⟩ := sheet_finish bare.opened inside .error _
  have finished := inside.finish bare.opened .error (some diagnostic)
  refine ⟨junk, openedAt, diagnostic, isCause, pending ▸ grafts, ?_,
    taken.mark (by rintro ⟨⟩) finished.opened,
    (retains_takeTrivia intact.opened scene.setting).trans finished⟩
  rw [closed, row, children]
  rfl

theorem isSignificant_of_isName {kind : TokenKind} (named : kind.isName = true) :
    kind.isSignificant = true := by
  cases kind with
  | lowerName | upperName | qualifiedLower | qualifiedUpper => rfl
  | _ => cases named

theorem isSignificant_of_isOperator (token : Token)
    (isOperator : DeclaredFixity.isOperator token.kind = true) :
    token.kind.isSignificant = true := by
  cases kind : token.kind <;> rw [kind] at isOperator <;> first | rfl | cases isOperator

theorem isOperator_of_isOperator {kind : TokenKind}
    (isOperator : DeclaredFixity.isOperator kind = true) : View.isOperator kind = true := by
  cases kind <;> first | rfl | cases isOperator

theorem Ongoing.faulted (ongoing : Ongoing scene start tokens gaps state)
    (isOperator : DeclaredFixity.isOperator (state.current scene.setting).kind = true) :
    Concluded scene start tokens (some (state.current scene.setting)) true gaps
      ((Script.fault (.fixity (.conflictingFixity (state.current scene.setting).text)) []
        Script.bump).run scene.setting rules state).2 := by
  have significant := isSignificant_of_isOperator _ isOperator
  obtain ⟨lexeme, rest, found, current⟩ := ahead_of_isSignificant significant
  rw [current] at isOperator significant ⊢
  obtain ⟨junk, openedAt, diagnostic, isCause, grafts, row, intact, retains⟩ :=
    @ongoing.intact.fault_bump lexeme rest scene state rules found
      _
  have hidden := ongoing.intact.hidden_junk found grafts
  have blank : scanned (junk.filterMap Tree.token?) = [] :=
    scanned_eq_nil fun token member => hidden token (mem_forestLeaves_of_token? member)
  refine ⟨intact, ongoing.retains.trans retains, ?_, ?_, ?_, ?_, ?_⟩
  · rw [row, List.filterMap_append, List.filterMap_append, DeclaredFixity.scanned_append,
      DeclaredFixity.scanned_append, ongoing.direct, blank, List.append_nil]
    rfl
  · rw [row, Tree.forestLeaves_append, Tree.forestLeaves_append,
      DeclaredFixity.scanned_append, DeclaredFixity.scanned_append, ongoing.leaves,
      scanned_eq_nil hidden, List.append_nil]
    exact congrArg _ (DeclaredFixity.scanned_cons_of_pos significant [])
  · rw [row, Tree.forestNodes_append, Tree.forestNodes_append]
    refine List.forall_mem_append.mpr ⟨List.forall_mem_append.mpr
      ⟨fun node member => (ongoing.calm node member).1,
        fun node member => (grafts.isCalm node member).1⟩, ?_⟩
    exact List.forall_mem_singleton.mpr rfl
  · intro _ nothing
    rw [row, Tree.forestNodes_append] at nothing
    exact List.cons_ne_nil _ _ (List.append_eq_nil_iff.mp nothing).2
  · rintro _ ⟨rfl⟩ place
    refine iff_of_true ?_ rfl
    rw [row]
    exact ⟨_, List.mem_append_right _ List.mem_cons_self, lexeme.token, rfl,
      isOperator_of_isOperator isOperator, rfl, rfl, _, rfl, isCause⟩

def State.tables (state : State) : OperatorTable × OperatorTable :=
  (state.declared, state.operators)

theorem tables_takeTrivia (setting : Setting) (state : State) :
    (state.takeTrivia setting).tables = state.tables := by
  obtain ⟨_, _, _, taken⟩ := takeTrivia_eq setting state
  rw [taken]
  rfl

theorem tables_bump (setting : Setting) (state : State) :
    (state.bump setting).tables = state.tables := by
  obtain ⟨_, _, _, _, _, bumped⟩ := bump_eq setting state
  rw [bumped]
  rfl

theorem tables_report (setting : Setting) (state : State) (cause : Cause)
    (expected : List TokenKind) : (state.report setting cause expected).tables = state.tables := by
  obtain ⟨_, _, reported⟩ := report_eq setting state cause expected
  rw [reported]
  rfl

theorem tables_fault_bump (cause : Cause) (expected : List TokenKind) (state : State) :
    ((Script.fault cause expected Script.bump).run scene.setting rules state).2.tables =
      state.tables :=
  (tables_bump scene.setting _).trans (tables_takeTrivia scene.setting state)

theorem tables_offered (test : Token → Bool) :
    (offered scene test state).tables = state.tables := by
  rw [offered]
  split
  · exact tables_bump scene.setting state
  · rfl

theorem tables_demanded (test : Token → Bool) (expected : List TokenKind) :
    (demanded scene test expected state).tables = state.tables := by
  rw [demanded]
  split
  · exact tables_bump scene.setting state
  · exact tables_report scene.setting state .syntactic expected

theorem declare_of_tables {one two : State} (same : one.tables = two.tables) (setting : Setting)
    (space : Namespace) (operator : String) (fixity : Fixity) :
    (one.declare setting space operator fixity).1 =
        (two.declare setting space operator fixity).1 ∧
      (one.declare setting space operator fixity).2.tables =
        (two.declare setting space operator fixity).2.tables := by
  obtain ⟨declared, operators⟩ := Prod.mk.inj same
  rw [State.declare, State.declare, declared, operators]
  cases two.declared.stored? space operator with
  | none => exact ⟨rfl, rfl⟩
  | some previous => exact ⟨rfl, same⟩

/-- What a declaration does to the fixities, and whether it contradicts an earlier one. -/
def Enacts (setting : Setting) (before : State) (conflicting : Bool) (after : State) :
    Option DeclaredFixity → Prop
  | none => conflicting = false ∧ after.tables = before.tables
  | some found =>
    conflicting = (before.declare setting found.space found.operator found.fixity).1 ∧
      after.tables = (before.declare setting found.space found.operator found.fixity).2.tables

theorem Enacts.of_tables {setting : Setting} {before after : State} {conflicting : Bool}
    {found : Option DeclaredFixity} (enacts : Enacts setting before conflicting after found)
    (same : before.tables = other.tables) : Enacts setting other conflicting after found := by
  cases found with
  | none => exact ⟨enacts.1, enacts.2.trans same⟩
  | some found =>
    obtain ⟨conflict, tables⟩ :=
      declare_of_tables same setting found.space found.operator found.fixity
    exact ⟨enacts.1.trans conflict, enacts.2.trans tables⟩

theorem Ongoing.of_eq (ongoing : Ongoing scene start tokens gaps state)
    (steady : Steady state other) : Ongoing scene start tokens gaps other := by
  have intact := ongoing.intact.of_trail steady.trail steady.ahead
  have timely := ongoing.timely.of_eq steady.ahead steady.reached steady.report
  obtain ⟨⟨-, -, retains, direct, leaves, calm, gap⟩, noted⟩ := ongoing
  rw [← sheet_of_trail steady.trail steady.ahead] at direct leaves calm gap noted
  rw [State.HasReported, ← steady.report, ← steady.reached] at noted
  exact ⟨⟨intact, timely, retains.of_trail steady.trail, direct, leaves, calm, gap⟩, noted⟩

theorem run_declaredOperator_of_some
    (isOperator : DeclaredFixity.isOperator (state.current scene.setting).kind = true)
    (space : Namespace) (associativity : Associativity) (precedence : Nat) :
    ((declaredOperator space associativity (some precedence)).run scene.setting rules state).2 =
      if (state.declare scene.setting space (state.current scene.setting).text
          ⟨associativity, precedence⟩).1 = true then
        ((Script.fault (.fixity (.conflictingFixity (state.current scene.setting).text)) []
          Script.bump).run scene.setting rules (state.declare scene.setting space
            (state.current scene.setting).text ⟨associativity, precedence⟩).2).2
      else
        (state.declare scene.setting space (state.current scene.setting).text
          ⟨associativity, precedence⟩).2.bump scene.setting := by
  rw [declaredOperator, run_look, if_pos (by exact isOperator)]
  change (Script.run scene.setting rules (if (state.declare scene.setting space
    (state.current scene.setting).text ⟨associativity, precedence⟩).1 = true then _ else _) _).2 = _
  split <;> rfl

theorem run_declaredOperator_of_none
    (isOperator : DeclaredFixity.isOperator (state.current scene.setting).kind = true)
    (space : Namespace) (associativity : Associativity) :
    ((declaredOperator space associativity none).run scene.setting rules state).2 =
      state.bump scene.setting := by
  rw [declaredOperator, run_look, if_pos (by exact isOperator)]
  rfl

theorem run_declaredOperator_of_neg
    (other : ¬ DeclaredFixity.isOperator (state.current scene.setting).kind = true)
    (space : Namespace) (associativity : Associativity) (precedence : Option Nat) :
    ((declaredOperator space associativity precedence).run scene.setting rules state).2 =
      state.report scene.setting .syntactic [.operator] := by
  rw [declaredOperator, run_look, if_neg (by exact other)]
  rfl

theorem Ongoing.declaredOperator (ongoing : Ongoing scene start tokens gaps state)
    (space : Namespace) (associativity : Associativity) (precedence : Option Nat) (offset : Nat) :
    ∃ conflicting,
      Concluded scene start tokens
        (ahead? scene (fun token => DeclaredFixity.isOperator token.kind) state) conflicting
        (gaps ∨ ahead? scene (fun token => DeclaredFixity.isOperator token.kind) state = none)
        ((declaredOperator space associativity precedence).run scene.setting rules state).2 ∧
      Enacts scene.setting state conflicting
        ((declaredOperator space associativity precedence).run scene.setting rules state).2
        (precedence.bind fun precedence =>
          (ahead? scene (fun token => DeclaredFixity.isOperator token.kind) state).map
            fun operator => ⟨space, operator.text, ⟨associativity, precedence⟩, offset⟩) := by
  by_cases isOperator : DeclaredFixity.isOperator (state.current scene.setting).kind = true
  · have ahead : ahead? scene (fun token => DeclaredFixity.isOperator token.kind) state =
        some (state.current scene.setting) := ahead?_of_pos isOperator
    rw [ahead]
    have gap (broken : gaps ∨ some (state.current scene.setting) = none) : gaps :=
      broken.resolve_right (Option.some_ne_none _)
    cases precedence with
    | none =>
      have taken := ongoing.toBegun.take isSignificant_of_isOperator isOperator
      rw [ahead] at taken
      rw [run_declaredOperator_of_none isOperator]
      exact ⟨false, { taken.concluded with gap := fun broken => taken.gap (gap broken) }, rfl,
        tables_bump scene.setting state⟩
    | some precedence =>
      rw [run_declaredOperator_of_some isOperator]
      obtain ⟨_, _, done⟩ := declare_eq scene.setting state space
        (state.current scene.setting).text ⟨associativity, precedence⟩
      have further : Ongoing scene start tokens gaps (state.declare scene.setting space
          (state.current scene.setting).text ⟨associativity, precedence⟩).2 := by
        rw [done]
        exact ongoing.of_eq ⟨rfl, rfl, rfl, rfl⟩
      have same : (state.declare scene.setting space (state.current scene.setting).text
          ⟨associativity, precedence⟩).2.current scene.setting = state.current scene.setting := by
        rw [done]
        rfl
      have stillOperator : DeclaredFixity.isOperator ((state.declare scene.setting space
          (state.current scene.setting).text ⟨associativity, precedence⟩).2.current
            scene.setting).kind = true := by
        rw [same]
        exact isOperator
      cases conflicts : (state.declare scene.setting space (state.current scene.setting).text
          ⟨associativity, precedence⟩).1 with
      | true =>
        have faulted := @further.faulted scene start _ tokens gaps rules stillOperator
        rw [same] at faulted
        exact ⟨true, { faulted with gap := fun broken => faulted.gap (gap broken) },
          conflicts.symm, tables_fault_bump _ _ _⟩
      | false =>
        have taken := further.toBegun.take isSignificant_of_isOperator stillOperator
        rw [ahead?_of_pos stillOperator, same] at taken
        exact ⟨false, { taken.concluded with gap := fun broken => taken.gap (gap broken) },
          conflicts.symm, tables_bump scene.setting _⟩
  · have noOperator :
        ahead? scene (fun token => DeclaredFixity.isOperator token.kind) state = none :=
      ahead?_of_neg isOperator
    rw [run_declaredOperator_of_neg isOperator, noOperator]
    refine ⟨false, Ongoing.concluded ?_, ?_⟩
    · rw [Option.toList_none, List.append_nil]
      exact ongoing.report [.operator]
    · cases precedence <;> exact ⟨rfl, tables_report scene.setting state .syntactic [.operator]⟩

/-! ### Whole declarations -/

theorem run_inside (kind : NodeKind) (body : Script Unit) (state : State) :
    ((inside kind body).run scene.setting rules state).2 =
      (body.run scene.setting rules (entered scene state)).2.mark (.finish kind none) :=
  rfl

theorem run_precedence (state : State) :
    precedence.run scene.setting rules state =
      ((ahead? scene (fun token => token.kind = .integer) state).bind
          fun digits => Literal.byte? digits.text,
        demanded scene (fun token => token.kind = .integer) [.integer] state) := by
  rw [run_look, demanded]
  by_cases isDigits : (state.current scene.setting).kind = .integer
  · have passes : decide ((state.current scene.setting).kind = .integer) = true :=
      decide_eq_true isDigits
    rw [ahead?_of_pos passes, if_pos passes, if_pos (by exact isDigits)]
    rfl
  · have fails : ¬ decide ((state.current scene.setting).kind = .integer) = true :=
      fun passes => isDigits (of_decide_eq_true passes)
    rw [ahead?_of_neg fails, if_neg fails, if_neg (by exact isDigits)]
    rfl

theorem run_eat (wanted : TokenKind) (state : State) :
    (eat wanted).run scene.setting rules state =
      ((ahead? scene (fun token => token.kind = wanted) state).isSome,
        offered scene (fun token => token.kind = wanted) state) := by
  rw [offered]
  by_cases isWanted : kindAhead scene state 0 = wanted
  · have passes : decide ((state.current scene.setting).kind = wanted) = true :=
      decide_eq_true isWanted
    rw [run_eat_of_sees isWanted, ahead?_of_pos passes, if_pos passes]
    rfl
  · have fails : ¬ decide ((state.current scene.setting).kind = wanted) = true :=
      fun passes => isWanted (of_decide_eq_true passes)
    rw [run_eat_of_not_sees isWanted, ahead?_of_neg fails, if_neg fails]
    rfl

theorem run_demanded {α : Type} (test : Token → Bool) (expected : List TokenKind)
    (next : Unit → Script α) (state : State) :
    (if test (state.current scene.setting) = true then Script.bump >>= next
      else missing expected >>= next).run scene.setting rules state =
        (next ()).run scene.setting rules (demanded scene test expected state) := by
  rw [demanded]
  split <;> rfl

theorem run_as {α : Type} (next : Unit → Script α) (state : State) :
    (eatWord "as" >>= fun answer => if answer = true then next ()
      else missing [.lowerName] >>= next).run scene.setting rules state =
        (next ()).run scene.setting rules
          (demanded scene DeclaredFixity.isAs [.lowerName] state) := by
  have eaten : (eatWord "as").run scene.setting rules state =
      if DeclaredFixity.isAs (state.current scene.setting) = true then
        (true, state.bump scene.setting)
      else (false, state) := by
    show Script.run _ _ (if DeclaredFixity.isAs (state.current scene.setting) = true then _ else _)
      _ = _
    split <;> rfl
  rw [run_bind, eaten, demanded]
  by_cases isAs : DeclaredFixity.isAs (state.current scene.setting) = true
  · rw [if_pos isAs, if_pos isAs]
    rfl
  · rw [if_neg isAs, if_neg isAs]
    rfl

/-!
The states behind the parts of a declaration.  They are not unfolded, because
each of them holds the run that leads to it.
-/

section Parts

variable (scene : Scene) (state : State)

@[irreducible]
def afterKeyword : State :=
  (entered scene state).bump scene.setting

@[irreducible]
def afterDigits : State :=
  demanded scene (fun token => token.kind = .integer) [.integer] (afterKeyword scene state)

@[irreducible]
def afterSpace : State :=
  offered scene (fun token => token.kind = .keyword .typeWord) (afterDigits scene state)

@[irreducible]
def afterTarget : State :=
  demanded scene (fun token => token.kind.isName) [.lowerName, .upperName] (afterSpace scene state)

@[irreducible]
def afterWord : State :=
  demanded scene DeclaredFixity.isAs [.lowerName] (afterTarget scene state)

/-- The tokens of the declaration that begins here, as far as they are there. -/
def draftAhead {keyword : Token} {associativity : Associativity}
    (declares : DeclaredFixity.associativity? keyword.kind = some associativity) : FixityDraft where
  keyword
  digits := ahead? scene (fun token => token.kind = .integer) (afterKeyword scene state)
  space := ahead? scene (fun token => token.kind = .keyword .typeWord) (afterDigits scene state)
  target := ahead? scene (fun token => token.kind.isName) (afterSpace scene state)
  word := ahead? scene DeclaredFixity.isAs (afterTarget scene state)
  operator := ahead? scene (fun token => DeclaredFixity.isOperator token.kind)
    (afterWord scene state)
  associativity
  declares
  isDigits := fun _ member => of_decide_eq_true (test_of_mem_ahead? member)
  isSpace := fun _ member => of_decide_eq_true (test_of_mem_ahead? member)
  isTarget := fun _ => test_of_mem_ahead?
  isWord := fun _ => test_of_mem_ahead?
  isOperator := fun _ => test_of_mem_ahead?

theorem tables_afterWord : (afterWord scene state).tables = state.tables := by
  rw [afterWord, tables_demanded, afterTarget, tables_demanded, afterSpace, tables_offered,
    afterDigits, tables_demanded, afterKeyword, tables_bump]
  exact tables_takeTrivia scene.setting state

theorem run_fixityDecl {keyword : Token}
    (declares : DeclaredFixity.associativity? keyword.kind = some associativity) :
    ((fixityDecl associativity).run scene.setting rules state).2 =
      ((declaredOperator
        (if (draftAhead scene state declares).space.isSome then .type else .value) associativity
        ((draftAhead scene state declares).digits.bind
          fun digits => Literal.byte? digits.text)).run scene.setting rules
            (afterWord scene state)).2.mark (.finish .fixityDecl none) := by
  rw [run_inside, run_bind,
    show (Script.bump.run scene.setting rules (entered scene state)).2 =
      afterKeyword scene state from by rw [afterKeyword]; rfl,
    run_bind, run_precedence, ← afterDigits]
  rw [run_bind, run_eat, ← afterSpace]
  rw [afterWord, afterTarget]
  refine congrArg (fun outcome : Unit × State => outcome.2.mark _) ?_
  exact (run_demanded (fun token => token.kind.isName) _ _ _).trans (run_as _ _)

end Parts

theorem isSignificant_of_isAs (token : Token) (isAs : DeclaredFixity.isAs token = true) :
    token.kind.isSignificant = true := by
  rw [of_decide_eq_true (Bool.and_eq_true_iff.mp isAs).1]
  rfl

theorem isSignificant_of_kind {kind : TokenKind} (significant : kind.isSignificant = true)
    (token : Token) (same : decide (token.kind = kind) = true) :
    token.kind.isSignificant = true := by
  rw [of_decide_eq_true same]
  exact significant

theorem fixityNodes_of_drafted {tree : Tree} {draft : FixityDraft} {conflicting : Bool}
    (drafted : tree.Drafted draft conflicting) : fixityNodes [tree] = [tree] := by
  have inside : fixityNodes tree.children = [] := fixityNodes_of_error drafted.inner
  have isDecl := drafted.isOfKind
  cases tree with
  | leaf => cases isDecl
  | node kind error span children =>
    rw [fixityNodes, forestNodes, forestNodes, List.append_nil, Tree.nodes,
      List.filter_cons_of_pos isDecl]
    exact congrArg _ inside

theorem ongoing_afterWord (intact : Intact scene state) (timely : Timely state)
    (found : state.ahead = lexeme :: rest)
    (declares : DeclaredFixity.associativity? lexeme.token.kind = some associativity) :
    Ongoing scene (entered scene state) (draftAhead scene state declares).front
      ((draftAhead scene state declares).digits = none ∨
        (draftAhead scene state declares).target = none ∨
        (draftAhead scene state declares).word = none) (afterWord scene state) := by
  obtain ⟨-, ahead, -⟩ := intact.takeTrivia (fun _ => false) found
  have significant : lexeme.token.kind.isSignificant = true :=
    Tree.isSignificant_of_isSome_associativity? (Option.isSome_of_eq_some declares)
  have keyword := (begun_entered intact timely).bump ahead significant
  rw [← afterKeyword] at keyword
  have digits := keyword.demand (@isSignificant_of_kind .integer rfl) [.integer]
  rw [← afterDigits] at digits
  have space := digits.offer (@isSignificant_of_kind (.keyword .typeWord) rfl)
  rw [← afterSpace] at space
  have target := space.demand (fun _ => isSignificant_of_isName) [.lowerName, .upperName]
  rw [← afterTarget] at target
  have word := target.demand isSignificant_of_isAs [.lowerName]
  rw [← afterWord] at word
  have front : (draftAhead scene state declares).front = [] ++ [lexeme.token] ++
      (ahead? scene (fun token => token.kind = .integer) (afterKeyword scene state)).toList ++
      (ahead? scene (fun token => token.kind = .keyword .typeWord)
        (afterDigits scene state)).toList ++
      (ahead? scene (fun token => token.kind.isName) (afterSpace scene state)).toList ++
      (ahead? scene DeclaredFixity.isAs (afterTarget scene state)).toList := by
    simp [draftAhead, FixityDraft.front]
  rw [front]
  refine { word with gap := fun broken => word.gap ?_ }
  rcases broken with noDigits | noTarget | noWord
  · exact .inl (.inl (.inr noDigits))
  · exact .inl (.inr noTarget)
  · exact .inr noWord

/--
A fixity declaration becomes a node that holds its tokens as far as they are
there, and it is declared if the operator is there and a precedence that is not
too large.
-/
theorem drafted_fixityDecl (intact : Intact scene state) (timely : Timely state)
    (declares : DeclaredFixity.associativity? (state.current scene.setting).kind =
      some associativity) :
    ∃ junk tree draft conflicting, (∀ node ∈ forestNodes junk, node.kind? = some .error) ∧
      tree.Drafted draft conflicting ∧
      Intact scene ((fixityDecl associativity).run scene.setting rules state).2 ∧
      (sheet scene ((fixityDecl associativity).run scene.setting rules state).2).1 =
        (sheet scene state).1 ++ junk ++ [tree] ∧
      Enacts scene.setting state conflicting
        ((fixityDecl associativity).run scene.setting rules state).2 draft.declared? := by
  obtain ⟨lexeme, rest, found, current⟩ := ahead_of_isSignificant
    (Tree.isSignificant_of_isSome_associativity? (Option.isSome_of_eq_some declares))
  obtain ⟨bare, -, junk, row, grafts, -⟩ := intact.takeTrivia (fun _ => false) found
  rw [current] at declares
  have ongoing := ongoing_afterWord intact timely found declares
  obtain ⟨conflicting, concluded, enacts⟩ := @ongoing.declaredOperator scene _ _ _ _ rules
    _ associativity
    _
    lexeme.token.span.start
  rw [run_fixityDecl scene state declares]
  generalize Script.run scene.setting rules _ _ = final
    at concluded enacts ⊢
  have finished := concluded.retains.finish bare.opened .fixityDecl none
  obtain ⟨openedAt, closed⟩ := sheet_finish bare.opened concluded.retains .fixityDecl none
  refine ⟨junk, .ofChildren .fixityDecl none openedAt (sheet scene final.2).1,
    draftAhead scene state declares, conflicting, fun node member => (grafts.isCalm node member).1,
    ⟨rfl, concluded.direct, concluded.leaves, concluded.errors, ?_,
      fun operator member => concluded.conflicts operator member openedAt⟩,
    concluded.intact.mark nofun finished.opened, by rw [closed, row],
    enacts.of_tables (tables_afterWord scene state)⟩
  intro nothing
  have complete := mt concluded.gap (not_not_intro nothing)
  simp only [not_or, ← Option.isSome_iff_ne_none] at complete
  exact ⟨complete.1.1, complete.1.2.1, complete.1.2.2, complete.2⟩

end Offside.Grammar
