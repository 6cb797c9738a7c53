import Offside.Proofs.Sketches
import Offside.Proofs.Tiling

/-!
# Runs over texts that differ in trivia

Two runs are twins if the tokens ahead of them differ only in the trivia
between them and the trees that they have finished have the same sketches.
Every step of the machine takes twins to twins.  Where a node is opened around
the tree finished last, that tree must have a sketch in both runs or in
neither.

If error nodes without children are kept in the sketches, then it also counts
whether something was reported at the place reached, since a second report
there is dropped.  So there the gaps between tokens must be empty in both texts
or in neither.
-/

namespace Offside.Grammar

open Offside.Sketch (Rows)

def Sight.ofToken (token : Token) : Sight :=
  ⟨token.kind, token.text⟩

def sketches (keepsEmpty : Bool) (scene : Scene) (state : State) : Rows :=
  Tree.Direct.rows keepsEmpty (stack scene state)

/-- The sketch of the tree that a run has finished last in the open node. -/
def tip? (keepsEmpty : Bool) (scene : Scene) (state : State) : Option Sketch :=
  Tree.Direct.tip? keepsEmpty (stack scene state)

def State.HasReported (state : State) : Prop :=
  state.lastReport = some state.reached

instance (state : State) : Decidable state.HasReported :=
  inferInstanceAs (Decidable (_ = _))

/-- What a script can ask for besides the tokens ahead. -/
structure Bearings where
  position : Nat
  operators : OperatorTable
  declared : OperatorTable
  openBrackets : Nat
  depth : Nat
  polls : Nat

/-- What a script can ask for in a state besides the tokens ahead. -/
def State.bearings (state : State) : Bearings :=
  { position := state.position
    operators := state.operators
    declared := state.declared
    openBrackets := state.openBrackets
    depth := state.depth
    polls := state.polls }

/-! ### One run -/

section OneRun

variable {keepsEmpty : Bool} {scene : Scene} {state : State} {pending : List Token}

variable {token : Token}

@[simp]
theorem sketches_start :
    sketches keepsEmpty scene (state.mark .start) = [] :: sketches keepsEmpty scene state := by
  rw [sketches, stack, drawn_mark]
  rfl

@[simp]
theorem sketches_finish (kind : NodeKind) (error : Option Diagnostic) :
    sketches keepsEmpty scene (state.mark (.finish kind error)) =
      Rows.close keepsEmpty kind (error.map Diagnostic.cause)
        (sketches keepsEmpty scene state) := by
  rw [sketches, stack, drawn_mark, Tree.Direct.State.rows_finish]
  rfl

@[simp]
theorem tip?_finish (kind : NodeKind) (error : Option Diagnostic) :
    tip? keepsEmpty scene (state.mark (.finish kind error)) =
      Rows.closed? keepsEmpty kind (error.map Diagnostic.cause)
        (sketches keepsEmpty scene state) := by
  rw [tip?, stack, drawn_mark, Tree.Direct.State.tip?_finish]
  rfl

@[simp]
theorem sketches_abandon :
    sketches keepsEmpty scene (state.mark .abandon) =
      Rows.giveUp (sketches keepsEmpty scene state) := by
  rw [sketches, stack, drawn_mark, Tree.Direct.State.rows_abandon]
  rfl

@[simp]
theorem sketches_precede :
    sketches keepsEmpty scene (state.mark (.precede 0)) =
      Rows.enclose (tip? keepsEmpty scene state).isSome
        (sketches keepsEmpty scene state) := by
  rw [sketches, stack, drawn_mark, Tree.Direct.State.rows_precede]
  rfl

theorem sketches_take (tracks : Tracks scene state (token :: pending)) :
    sketches keepsEmpty scene (state.take token) =
      Rows.adopt (Sketch.ofToken? token) (sketches keepsEmpty scene state) := by
  rw [sketches, stack, drawn_take, Tree.Direct.State.rows_token tracks.left]
  rfl

theorem sketches_of_trail {other : State} (trail : other.trail = state.trail) :
    sketches keepsEmpty scene other = sketches keepsEmpty scene state := by
  rw [sketches, stack, drawn_of_trail trail]
  rfl

theorem hasReported_iff {later : State} {taken : Nat}
    (recent : ∀ offset ∈ state.lastReport, offset ≤ state.reached)
    (report : later.lastReport = state.lastReport)
    (reached : later.reached = state.reached + taken) :
    later.HasReported ↔ state.HasReported ∧ taken = 0 := by
  rw [State.HasReported, State.HasReported, report, reached]
  constructor
  · intro here
    have place := recent _ here
    have noneTaken : taken = 0 := by omega
    exact ⟨by rw [here, noneTaken, Nat.add_zero], noneTaken⟩
  · rintro ⟨here, noneTaken⟩
    rw [here, noneTaken, Nat.add_zero]

theorem hasReported_take (tracks : Tracks scene state (token :: pending)) :
    (state.take token).HasReported ↔ state.HasReported ∧ token.text = "" := by
  rw [← String.utf8ByteSize_eq_zero_iff]
  refine hasReported_iff tracks.recent rfl ?_
  show token.span.stop = _
  rw [tracks.laid.1]

theorem report_tracks (tracks : Tracks scene state pending) (cause : Cause)
    (expected : List TokenKind) :
    Tracks scene (state.report scene.setting cause expected) pending ∧
      (state.report scene.setting cause expected).ahead = state.ahead ∧
      (state.report scene.setting cause expected).bearings = state.bearings ∧
      ((state.report scene.setting cause expected).HasReported ↔
        cause = .syntactic ∨ state.HasReported) ∧
      sketches keepsEmpty scene (state.report scene.setting cause expected) =
        if cause = .syntactic ∧ state.HasReported then sketches keepsEmpty scene state
        else Rows.adopt (Sketch.ofNode? keepsEmpty .error (some cause) [])
          (sketches keepsEmpty scene state) := by
  by_cases repeats : cause = .syntactic ∧ state.HasReported
  · have same : state.report scene.setting cause expected = state := by
      rw [State.report, if_pos (by simpa [State.HasReported] using repeats)]
    rw [same, if_pos repeats]
    exact ⟨tracks, rfl, rfl, iff_of_true repeats.2 (.inl repeats.1), rfl⟩
  · have differs : ¬ ((decide (cause = .syntactic) &&
        decide (state.lastReport = some state.reached)) = true) := by
      simpa [State.HasReported] using repeats
    have reported := tracks.report scene.setting cause expected
    rw [State.report, if_neg differs] at reported ⊢
    rw [if_neg repeats]
    refine ⟨reported, rfl, rfl, ?_, ?_⟩
    · split
      · next syntactic => exact iff_of_true rfl (.inl syntactic)
      · next other => exact ⟨.inr, fun either => either.resolve_left other⟩
    · change sketches keepsEmpty scene ((state.mark .start).mark _) = _
      rw [sketches_finish, sketches_start]
      rfl

/-! ### Trivia -/

def faultSketch (sight : Sight) : Sketch :=
  .node .error (State.triviaCause? sight.kind) [.leaf sight.kind sight.text]

def faultsIn (trivia : List Token) : List Sight :=
  (trivia.filter fun token => !token.kind.isInsignificant).map Sight.ofToken

/-- The grammar sees none of the tokens, and no error node that is kept holds only them. -/
def Muted (keepsEmpty : Bool) (trivia : List Token) : Prop :=
  ∀ token ∈ trivia, token.kind.isVisible = false ∧
    (keepsEmpty = true → token.kind ≠ .error .unterminatedComment)

theorem isLayoutError_of_hidden {kind : TokenKind} (hidden : kind.isVisible = false)
    (significant : kind.isInsignificant = false) : ∃ fault, kind = .layoutError fault := by
  cases kind with
  | _ => simp_all [TokenKind.isVisible, TokenKind.isLayoutError]

theorem triviaCause?_of_isInsignificant {kind : TokenKind}
    (blank : kind.isInsignificant = true) (terminated : kind ≠ .error .unterminatedComment) :
    State.triviaCause? kind = none := by
  cases kind with
  | error fault => simp_all [TokenKind.isInsignificant, TokenKind.isTrivia]
  | layoutError fault => cases blank
  | _ => rfl

theorem takeTrivium_tracks (tracks : Tracks scene state (token :: pending))
    (hidden : token.kind.isVisible = false)
    (terminated : keepsEmpty = true → token.kind ≠ .error .unterminatedComment) :
    Tracks scene (state.takeTrivium scene.setting token) pending ∧
      sketches keepsEmpty scene (state.takeTrivium scene.setting token) =
        (faultsIn [token]).foldl (fun rows sight => rows.adopt (some (faultSketch sight)))
          (sketches keepsEmpty scene state) := by
  cases faulty : State.triviaCause? token.kind with
  | none =>
    have blank : token.kind.isInsignificant = true := by
      by_contra significant
      obtain ⟨fault, isFault⟩ := isLayoutError_of_hidden hidden (by simpa using significant)
      rw [isFault] at faulty
      cases faulty
    rw [takeTrivium_of_none scene.setting state faulty]
    refine ⟨tracks.take, ?_⟩
    rw [sketches_take tracks, Sketch.ofToken?]
    simp [faultsIn, blank]
  | some cause =>
    obtain ⟨diagnostic, isCause, -, taken⟩ :=
      takeTrivium_of_some scene.setting state faulty
    have inner : Tracks scene (state.mark .start) (token :: pending) :=
      tracks.mark .start nofun
    rw [taken]
    refine ⟨inner.take.mark _ nofun, ?_⟩
    rw [sketches_finish, sketches_take inner]
    cases blank : token.kind.isInsignificant with
    | true =>
      have dropsEmpty : keepsEmpty = false := by
        by_contra keeps
        have named := triviaCause?_of_isInsignificant blank
          (terminated (by simpa using keeps))
        rw [named] at faulty
        cases faulty
      simp [Rows.close, Sketch.ofToken?, Sketch.ofNode?, faultsIn, blank, dropsEmpty]
    | false =>
      simp [Rows.close, Rows.adopt, Sketch.ofToken?, Sketch.ofNode?, faultsIn, blank,
        faultSketch, Sight.ofToken, faulty, isCause]

theorem foldl_takeTrivium_tracks (trivia : List Token)
    (tracks : Tracks scene state (trivia ++ pending))
    (quiet : Muted keepsEmpty trivia) :
    Tracks scene (trivia.foldl (State.takeTrivium scene.setting) state) pending ∧
      sketches keepsEmpty scene (trivia.foldl (State.takeTrivium scene.setting) state) =
        (faultsIn trivia).foldl (fun rows sight => rows.adopt (some (faultSketch sight)))
          (sketches keepsEmpty scene state) := by
  induction trivia generalizing state with
  | nil => exact ⟨tracks, rfl⟩
  | cons token rest ih =>
    obtain ⟨⟨hidden, terminated⟩, later⟩ := List.forall_mem_cons.mp quiet
    obtain ⟨tracksOne, drawnOne⟩ := takeTrivium_tracks tracks hidden terminated
    obtain ⟨tracksAll, drawnAll⟩ := ih tracksOne later
    refine ⟨tracksAll, ?_⟩
    rw [List.foldl_cons, drawnAll, drawnOne, ← List.foldl_append, faultsIn, faultsIn,
      ← List.map_append, ← List.filter_append]
    rfl

theorem reached_foldl_takeTrivium (setting : Setting) (trivia : List Token)
    (laid : Token.Laid state.reached trivia) :
    (trivia.foldl (State.takeTrivium setting) state).reached =
      state.reached + (Token.textOf trivia).utf8ByteSize := by
  induction trivia generalizing state with
  | nil => simp
  | cons token rest ih =>
    obtain ⟨own, later⟩ := laid
    have once : (state.takeTrivium setting token).reached =
        state.reached + token.text.utf8ByteSize := by
      rw [State.takeTrivium]
      split
      · show token.span.stop = _
        rw [own]
      · show token.span.stop = _
        rw [own]
    rw [List.foldl_cons, ih (by rw [once]; exact later), once, Token.textOf_cons,
      String.utf8ByteSize_append, Nat.add_assoc]

end OneRun

/-! ### Two runs -/

/-- The trivia in front of two tokens holds the same layout faults. -/
structure Kindred (keepsEmpty : Bool) (one two : List Token) : Prop where
  left : Muted keepsEmpty one
  right : Muted keepsEmpty two
  faults : faultsIn one = faultsIn two

/-- The trivia in front of two tokens is alike, and if that counts it has text or not in both. -/
structure Paired (keepsEmpty : Bool) (one two : List Token) : Prop
    extends Kindred keepsEmpty one two where
  gap : keepsEmpty = true → (Token.textOf one = "" ↔ Token.textOf two = "")

/-- Two tokens that the grammar sees differ only in the trivia in front of them. -/
structure Matched (keepsEmpty : Bool) (one two : Lexeme) : Prop where
  sight : Sight.ofToken one.token = Sight.ofToken two.token
  trivia : Paired keepsEmpty one.trivia two.trivia

/-- The settings of two runs differ only in the length of the text. -/
structure Setting.Alike (one two : Setting) : Prop where
  reportsUnknown : one.reportsUnknown = two.reportsUnknown
  declaresInOrder : one.declaresInOrder = two.declaresInOrder
  isCancelled : one.isCancelled = two.isCancelled
  rounds : one.rounds = two.rounds

/-- What two runs work on, and whether error nodes without children count. -/
structure Pair where
  keepsEmpty : Bool
  left : Scene
  right : Scene
  alike : left.setting.Alike right.setting

namespace Pair

variable (pair : Pair)

/-- The two runs have drawn the same. -/
structure InStep (one two : State) : Prop where
  left : Tracks pair.left one (one.ahead.flatMap Lexeme.tokens)
  right : Tracks pair.right two (two.ahead.flatMap Lexeme.tokens)
  rows : sketches pair.keepsEmpty pair.left one = sketches pair.keepsEmpty pair.right two
  bearings : one.bearings = two.bearings

/-- The two runs have come equally far. -/
structure Twins (one two : State) : Prop extends pair.InStep one two where
  ahead : List.Forall₂ (Matched pair.keepsEmpty) one.ahead two.ahead
  paced : pair.keepsEmpty = true → (one.HasReported ↔ two.HasReported)

/-- The trees finished last have sketches in both runs or in neither. -/
def Tips (one two : State) : Prop :=
  (tip? pair.keepsEmpty pair.left one).isSome = (tip? pair.keepsEmpty pair.right two).isSome

end Pair

section TwoRuns

variable {pair : Pair} {one two : State}

theorem Pair.InStep.of_eq {first second : State} (inStep : pair.InStep one two)
    (left : Steady one first) (right : Steady two second)
    (bearings : first.bearings = second.bearings) : pair.InStep first second where
  left := by
    rw [left.ahead]
    exact inStep.left.of_eq left.trail left.reached left.report
  right := by
    rw [right.ahead]
    exact inStep.right.of_eq right.trail right.reached right.report
  rows := by rw [sketches_of_trail left.trail, sketches_of_trail right.trail, inStep.rows]
  bearings := bearings

namespace Pair.Twins

theorem mark {first second : Mark} (twins : pair.Twins one two) (other : first ≠ .token)
    (another : second ≠ .token) (rows : sketches pair.keepsEmpty pair.left (one.mark first) =
      sketches pair.keepsEmpty pair.right (two.mark second)) :
    pair.Twins (one.mark first) (two.mark second) where
  left := twins.left.mark first other
  right := twins.right.mark second another
  ahead := twins.ahead
  rows := rows
  bearings := twins.bearings
  paced := twins.paced

theorem start (twins : pair.Twins one two) : pair.Twins (one.mark .start) (two.mark .start) :=
  twins.mark nofun nofun (by rw [sketches_start, sketches_start, twins.rows])

theorem finish (twins : pair.Twins one two) (kind : NodeKind) {first second : Option Diagnostic}
    (cause : first.map Diagnostic.cause = second.map Diagnostic.cause) :
    pair.Twins (one.mark (.finish kind first)) (two.mark (.finish kind second)) ∧
      pair.Tips (one.mark (.finish kind first)) (two.mark (.finish kind second)) := by
  refine ⟨twins.mark nofun nofun ?_, ?_⟩
  · rw [sketches_finish, sketches_finish, twins.rows, cause]
  · rw [Pair.Tips, tip?_finish, tip?_finish, twins.rows, cause]

theorem abandon (twins : pair.Twins one two) : pair.Twins (one.mark .abandon) (two.mark .abandon) :=
  twins.mark nofun nofun (by rw [sketches_abandon, sketches_abandon, twins.rows])

theorem precede (twins : pair.Twins one two) (tips : pair.Tips one two) :
    pair.Twins (one.mark (.precede 0)) (two.mark (.precede 0)) := by
  refine twins.mark nofun nofun ?_
  rw [sketches_precede, sketches_precede, twins.rows, show _ = _ from tips]

theorem of_eq {first second : State} (twins : pair.Twins one two) (left : Steady one first)
    (right : Steady two second) (bearings : first.bearings = second.bearings) :
    pair.Twins first second where
  toInStep := twins.toInStep.of_eq left right bearings
  ahead := by
    rw [left.ahead, right.ahead]
    exact twins.ahead
  paced := by
    rw [State.HasReported, State.HasReported, left.report, right.report, left.reached,
      right.reached]
    exact twins.paced

end Pair.Twins

/-! ### Looking ahead -/

theorem peek_eq (setting : Setting) (state : State) (index : Nat) :
    state.peek setting index =
      ((state.ahead.map fun lexeme => Sight.ofToken lexeme.token)[index]?).getD
        ⟨.eof, ""⟩ := by
  rw [State.peek, State.tokenAt, List.getElem?_map]
  cases state.ahead[index]? <;> rfl

variable {keepsEmpty : Bool}

theorem Matched.sights {left right : List Lexeme}
    (matched : List.Forall₂ (Matched keepsEmpty) left right) :
    (left.map fun lexeme => Sight.ofToken lexeme.token) =
      right.map fun lexeme => Sight.ofToken lexeme.token := by
  induction matched with
  | nil => rfl
  | cons same _ ih => rw [List.map_cons, List.map_cons, same.sight, ih]

theorem Pair.Twins.peek (twins : pair.Twins one two) (index : Nat) :
    one.peek pair.left.setting index = two.peek pair.right.setting index := by
  rw [peek_eq, peek_eq, Matched.sights twins.ahead]

theorem Matched.searchFrom {left right : List Lexeme}
    (matched : List.Forall₂ (Matched keepsEmpty) left right) (wanted : Sight → Bool)
    (stops : List TokenKind) (depth : Nat) :
    State.searchFrom wanted stops depth left = State.searchFrom wanted stops depth right := by
  induction matched generalizing depth with
  | nil => rfl
  | @cons lexeme other _ _ same _ ih =>
    have kind : lexeme.token.kind = other.token.kind := congrArg Sight.kind same.sight
    have text : lexeme.token.text = other.token.text := congrArg Sight.text same.sight
    simp only [State.searchFrom, kind, text, ih]

/-! ### Taking tokens -/

theorem paired_nil : Paired keepsEmpty [] [] where
  left := List.forall_mem_nil _
  right := List.forall_mem_nil _
  faults := rfl
  gap _ := Iff.rfl

/-- Trivia is taken, and what was reported in front of it is behind now unless it is empty. -/
theorem takeTrivia_tracks {scene : Scene} {state : State} {lexeme : Lexeme} {rest : List Lexeme}
    (tracks : Tracks scene state (state.ahead.flatMap Lexeme.tokens))
    (found : state.ahead = lexeme :: rest) (quiet : Muted keepsEmpty lexeme.trivia) :
    Tracks scene (state.takeTrivia scene.setting)
        (lexeme.token :: rest.flatMap Lexeme.tokens) ∧
      sketches keepsEmpty scene (state.takeTrivia scene.setting) =
        (faultsIn lexeme.trivia).foldl
          (fun rows sight => rows.adopt (some (faultSketch sight)))
          (sketches keepsEmpty scene state) ∧
      (state.takeTrivia scene.setting).bearings = state.bearings ∧
      ((state.takeTrivia scene.setting).HasReported ↔
        state.HasReported ∧ Token.textOf lexeme.trivia = "") := by
  rw [found, List.flatMap_cons, Lexeme.tokens, List.append_assoc] at tracks
  obtain ⟨done, drawn⟩ := foldl_takeTrivium_tracks lexeme.trivia tracks quiet
  have reached := reached_foldl_takeTrivium scene.setting lexeme.trivia
    (Token.laid_append.mp tracks.laid).1
  obtain ⟨trail, place, changed⟩ : ∃ trail reached,
      lexeme.trivia.foldl (State.takeTrivium scene.setting) state =
        { state with trail, reached } :=
    foldl_takeTrivium_eq scene.setting lexeme.trivia
  rw [takeTrivia_of_cons scene.setting found]
  refine ⟨done.of_eq rfl rfl rfl, rfl.trans drawn, ?_, ?_⟩
  · rw [changed]
    rfl
  · rw [← String.utf8ByteSize_eq_zero_iff]
    exact hasReported_iff tracks.recent (by rw [changed]) reached

namespace Pair.Twins

/-- Once the trivia in front of the same token is taken it only counts what was reported. -/
theorem of_takeTrivia {lexeme other : Lexeme} {rest others : List Lexeme}
    (inStep : pair.InStep one two) (foundOne : one.ahead = lexeme :: rest)
    (foundTwo : two.ahead = other :: others)
    (sight : Sight.ofToken lexeme.token = Sight.ofToken other.token)
    (trivia : Kindred pair.keepsEmpty lexeme.trivia other.trivia)
    (later : List.Forall₂ (Matched pair.keepsEmpty) rest others) (paced : pair.keepsEmpty = true →
      (one.HasReported ∧ Token.textOf lexeme.trivia = "" ↔
        two.HasReported ∧ Token.textOf other.trivia = "")) :
    pair.Twins (one.takeTrivia pair.left.setting) (two.takeTrivia pair.right.setting) := by
  obtain ⟨takenLeft, rowsLeft, bearingsLeft, pacedLeft⟩ :=
    takeTrivia_tracks inStep.left foundOne trivia.left
  obtain ⟨takenRight, rowsRight, bearingsRight, pacedRight⟩ :=
    takeTrivia_tracks inStep.right foundTwo trivia.right
  have aheadOne : (one.takeTrivia pair.left.setting).ahead =
      { lexeme with trivia := [] } :: rest := by
    rw [takeTrivia_of_cons _ foundOne]
  have aheadTwo : (two.takeTrivia pair.right.setting).ahead =
      { other with trivia := [] } :: others := by
    rw [takeTrivia_of_cons _ foundTwo]
  refine ⟨⟨?_, ?_, ?_, ?_⟩, ?_, ?_⟩
  · rw [aheadOne]
    exact takenLeft
  · rw [aheadTwo]
    exact takenRight
  · rw [rowsLeft, rowsRight, trivia.faults, inStep.rows]
  · rw [bearingsLeft, bearingsRight, inStep.bearings]
  · rw [aheadOne, aheadTwo]
    exact .cons ⟨sight, paired_nil⟩ later
  · intro keeps
    rw [pacedLeft, pacedRight]
    exact paced keeps

theorem takeTrivia (twins : pair.Twins one two) :
    pair.Twins (one.takeTrivia pair.left.setting) (two.takeTrivia pair.right.setting) := by
  have matched := twins.ahead
  match foundOne : one.ahead, foundTwo : two.ahead, matched with
  | [], [], _ =>
    rw [State.takeTrivia, State.takeTrivia, foundOne, foundTwo]
    exact twins
  | lexeme :: rest, other :: others, .cons same later =>
    refine of_takeTrivia twins.toInStep foundOne foundTwo same.sight same.trivia.toKindred
      later ?_
    intro keeps
    rw [twins.paced keeps, same.trivia.gap keeps]

theorem bump (twins : pair.Twins one two) :
    pair.Twins (one.bump pair.left.setting) (two.bump pair.right.setting) := by
  have ready := twins.takeTrivia
  have matched := twins.ahead
  match foundOne : one.ahead, foundTwo : two.ahead, matched with
  | [], [], _ =>
    rw [bump_of_ahead_nil _ foundOne, bump_of_ahead_nil _ foundTwo]
    exact twins
  | lexeme :: rest, other :: others, .cons same later =>
    rw [bump_of_cons _ foundOne, bump_of_cons _ foundTwo]
    obtain ⟨left, -, -, -⟩ :=
      takeTrivia_tracks twins.left foundOne same.trivia.left
    obtain ⟨right, -, -, -⟩ :=
      takeTrivia_tracks twins.right foundTwo same.trivia.right
    have kind : lexeme.token.kind = other.token.kind := congrArg Sight.kind same.sight
    have text : lexeme.token.text = other.token.text := congrArg Sight.text same.sight
    refine ⟨⟨left.take.of_eq rfl rfl rfl, right.take.of_eq rfl rfl rfl, ?_, ?_⟩, later, ?_⟩
    · change sketches pair.keepsEmpty pair.left
          ((one.takeTrivia pair.left.setting).take lexeme.token) =
        sketches pair.keepsEmpty pair.right
          ((two.takeTrivia pair.right.setting).take other.token)
      rw [sketches_take left, sketches_take right, ready.rows, Sketch.ofToken?,
        Sketch.ofToken?, kind, text]
    · rw [kind]
      exact congrArg
        (fun bearings : Bearings => { bearings with
          position := bearings.position + 1
          openBrackets := State.bracketsAfter other.token.kind bearings.openBrackets })
        ready.bearings
    · intro keeps
      change ((one.takeTrivia pair.left.setting).take lexeme.token).HasReported ↔
        ((two.takeTrivia pair.right.setting).take other.token).HasReported
      rw [hasReported_take left, hasReported_take right, ready.paced keeps, text]

theorem report (twins : pair.Twins one two) (cause : Cause) (expected : List TokenKind) :
    pair.Twins (one.report pair.left.setting cause expected)
      (two.report pair.right.setting cause expected) := by
  obtain ⟨left, aheadOne, bearingsOne, reportedOne, rowsOne⟩ :=
    report_tracks twins.left cause expected
  obtain ⟨right, aheadTwo, bearingsTwo, reportedTwo, rowsTwo⟩ :=
    report_tracks twins.right cause expected
  refine ⟨⟨?_, ?_, ?_, ?_⟩, ?_, ?_⟩
  · rw [aheadOne]
    exact left
  · rw [aheadTwo]
    exact right
  · rw [rowsOne, rowsTwo, twins.rows]
    -- A report that only one of the runs keeps leaves an empty error node, which is left out.
    cases keeps : pair.keepsEmpty with
    | true => simp only [twins.paced keeps]
    | false => simp [Sketch.ofNode?]
  · rw [bearingsOne, bearingsTwo, twins.bearings]
  · rw [aheadOne, aheadTwo]
    exact twins.ahead
  · intro keeps
    rw [reportedOne, reportedTwo, twins.paced keeps]

theorem blame (twins : pair.Twins one two) (tips : pair.Tips one two) (cause : Cause)
    (first second : Found) :
    pair.Twins (one.blame pair.left.setting cause first)
        (two.blame pair.right.setting cause second) ∧
      pair.Tips (one.blame pair.left.setting cause first)
        (two.blame pair.right.setting cause second) :=
  (twins.precede tips).finish .error rfl

end Pair.Twins

end TwoRuns

end Offside.Grammar
