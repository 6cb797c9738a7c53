import Offside.Proofs.Landmarks
import Offside.Proofs.MirroredGrammar

/-!
# Trees do not depend on trivia

The parses of two texts with the same landmarks run side by side from the
opening of the root to its end.  They start with the same fixities, since the
declarations of a text are found by its significant tokens alone, and every
production treats them alike.  So the trees differ only in trivia, in places,
and in error nodes without children.
-/

namespace Offside

/-! ### Fixities that the text declares -/

def Token.unplaced (token : Token) : Token :=
  { token with span := Span.empty 0 }

namespace DeclaredFixity

def unplaced (declared : DeclaredFixity) : DeclaredFixity :=
  { declared with offset := 0 }

theorem operator?_unplaced (tokens : List Token) :
    operator? (tokens.map Token.unplaced) = operator? tokens := by
  match tokens with
  | [] | [_] | [_, _] | _ :: _ :: _ :: _ => rfl

theorem match?_unplaced (associativity : Associativity) (offset : Nat) (tokens : List Token) :
    match? associativity 0 (tokens.map Token.unplaced) =
      (match? associativity offset tokens).map unplaced := by
  match tokens with
  | [] => rfl
  | digits :: rest =>
    simp only [List.map_cons, match?, Token.unplaced]
    split
    · cases Literal.byte? digits.text with
      | none => rfl
      | some precedence =>
        match rest with
        | [] => rfl
        | first :: tail =>
          simp only [List.map_cons, Token.unplaced]
          split
          · rw [operator?_unplaced]
            cases operator? tail <;> rfl
          · have whole := operator?_unplaced (first :: tail)
            rw [List.map_cons, Token.unplaced] at whole
            rw [whole]
            cases operator? _ <;> rfl
    · rfl

theorem collect_unplaced (tokens : List Token) :
    collect (tokens.map Token.unplaced) = (collect tokens).map unplaced := by
  induction tokens with
  | nil => rfl
  | cons token rest ih =>
    rw [List.map_cons, collect, collect, ih]
    simp only [Token.unplaced, Span.empty]
    cases associativity? token.kind with
    | none => rfl
    | some associativity =>
      rw [Option.bind_some, Option.bind_some, match?_unplaced associativity token.span.start rest]
      cases match? associativity token.span.start rest <;> rfl

theorem firsts_unplaced (declared : List DeclaredFixity) :
    firsts (declared.map unplaced) = (firsts declared).map unplaced := by
  induction declared with
  | nil => rfl
  | cons first rest ih =>
    rw [List.map_cons, firsts, ih, List.filter_map]
    rfl

end DeclaredFixity

theorem OperatorTable.declare_unplaced (table : OperatorTable) (declared : List DeclaredFixity) :
    table.declare (declared.map DeclaredFixity.unplaced) = table.declare declared := by
  rw [declare, DeclaredFixity.firsts_unplaced, List.foldl_map]
  rfl

namespace Grammar

theorem openingTable_congr (options : ParseOptions) (seed : OperatorTable)
    {tokens others : List Token}
    (same : (tokens.filter fun token => token.kind.isSignificant).map Sight.ofToken =
      (others.filter fun token => token.kind.isSignificant).map Sight.ofToken) :
    Parse.openingTable options seed tokens = Parse.openingTable options seed others := by
  have unplaced : (tokens.filter fun token => token.kind.isSignificant).map Token.unplaced =
      (others.filter fun token => token.kind.isSignificant).map Token.unplaced := by
    have spelled := congrArg
      (List.map fun sight : Sight => (⟨sight.kind, Span.empty 0, sight.text⟩ : Token)) same
    rw [List.map_map, List.map_map] at spelled
    exact spelled
  rw [Parse.openingTable, Parse.openingTable, DeclaredFixity.scan, DeclaredFixity.scan,
    ← OperatorTable.declare_unplaced, ← DeclaredFixity.collect_unplaced, unplaced,
    DeclaredFixity.collect_unplaced, OperatorTable.declare_unplaced]

/-! ### The runs side by side -/

section Runs

variable {keepsEmpty : Bool}

theorem Aligned.sights {left right : List Lexeme} (aligned : Aligned keepsEmpty left right) :
    (left.map fun lexeme => Sight.ofToken lexeme.token) =
      right.map fun lexeme => Sight.ofToken lexeme.token := by
  cases aligned with
  | intro sight _ _ matched =>
    rw [List.map_cons, List.map_cons, sight, Matched.sights matched]

/-- If empty error nodes do not count, neither does the trivia in front of the first tokens. -/
theorem Aligned.matched {left right : List Lexeme} (aligned : Aligned false left right) :
    List.Forall₂ (Matched false) left right := by
  cases aligned with
  | intro sight _ trivia matched => exact .cons ⟨sight, trivia, by rintro ⟨⟩⟩ matched

theorem filter_isSignificant (tokens : List Token) :
    (tokens.filter fun token => token.kind.isSignificant).map Sight.ofToken =
      ((Lexeme.group tokens).map fun lexeme => Sight.ofToken lexeme.token).filter
        fun sight => sight.kind.isSignificant := by
  have seen : tokens.filter (fun token => token.kind.isSignificant) =
      ((Lexeme.group tokens).map Lexeme.token).filter
        fun token => token.kind.isSignificant := by
    rw [Lexeme.group, Lexeme.map_token_groupFrom, List.filter_filter]
    refine List.filter_congr fun token _ => ?_
    cases significant : token.kind.isSignificant with
    | false => rfl
    | true => rw [isVisible_of_isSignificant significant, Bool.and_self]
  rw [seen, List.filter_map, List.filter_map, List.map_map]
  rfl

theorem Matched.filterMap_ofToken? {left right : List Lexeme}
    (matched : List.Forall₂ (Matched keepsEmpty) left right) :
    (left.flatMap Lexeme.tokens).filterMap Sketch.ofToken? =
      (right.flatMap Lexeme.tokens).filterMap Sketch.ofToken? := by
  have told : ∀ trivia : List Token, trivia.filterMap Sketch.ofToken? =
      (faultsIn trivia).map fun sight => .leaf sight.kind sight.text := by
    intro trivia
    induction trivia with
    | nil => rfl
    | cons token rest ih =>
      cases blank : token.kind.isInsignificant <;>
        simp_all [faultsIn, Sketch.ofToken?, Sight.ofToken]
  induction matched with
  | nil => rfl
  | @cons lexeme other _ _ same _ ih =>
    have kind : lexeme.token.kind = other.token.kind := congrArg Sight.kind same.sight
    have text : lexeme.token.text = other.token.text := congrArg Sight.text same.sight
    have token : Sketch.ofToken? lexeme.token = Sketch.ofToken? other.token := by
      rw [Sketch.ofToken?, Sketch.ofToken?, kind, text]
    have trivia : lexeme.trivia.filterMap Sketch.ofToken? =
        other.trivia.filterMap Sketch.ofToken? := by
      rw [told, told, same.trivia.faults]
    simp only [List.flatMap_cons, Lexeme.tokens, List.filterMap_append, trivia,
      List.filterMap_cons, token, ih]

end Runs

end Grammar

namespace Job

open Grammar

variable (job : Job) {keepsEmpty : Bool} {other : String}

@[reducible]
def on (other : String) : Job :=
  { job with source := other }

theorem sketches_opening : sketches keepsEmpty job.scene job.opening = [[]] := by
  rfl

variable (aligned : Aligned keepsEmpty (Lexeme.group job.tokens)
  (Lexeme.group (job.on other).tokens))

def parses : Pair where
  keepsEmpty := keepsEmpty
  left := job.scene
  right := (job.on other).scene
  alike := by
    have lengths := congrArg List.length aligned.sights
    rw [List.length_map, List.length_map] at lengths
    exact ⟨rfl, rfl, rfl, congrArg (· + 2) lengths⟩

include aligned in
theorem bearings_opening : job.opening.bearings = (job.on other).opening.bearings := by
  have tables : Parse.openingTable job.options job.seed job.tokens =
      Parse.openingTable job.options job.seed (job.on other).tokens :=
    openingTable_congr job.options job.seed
      (by rw [filter_isSignificant, filter_isSignificant, aligned.sights])
  exact congrArg
    (fun operators => (({ ahead := [], operators } : State).mark .start).bearings) tables

theorem inStep_opening : (job.parses aligned).InStep job.opening (job.on other).opening where
  left := job.opening_synchronous.toTracks
  right := (job.on other).opening_synchronous.toTracks
  rows := job.sketches_opening.trans (job.on other).sketches_opening.symm
  bearings := job.bearings_opening aligned

theorem twins_opening (aligned : Aligned false (Lexeme.group job.tokens)
      (Lexeme.group (job.on other).tokens)) :
    (job.parses aligned).Twins job.opening (job.on other).opening where
  toInStep := job.inStep_opening aligned
  ahead := aligned.matched
  paced := nofun

/-- The sketch of the root is told by the sketches in the node left open and what is ahead. -/
theorem sketch?_root_run :
    ∃ row, sketches keepsEmpty job.scene job.ending.2 = [row] ∧
      job.run.parse.root.sketch? keepsEmpty =
        some (.node .wholeModule none (row.reverse ++
          (job.ending.2.ahead.flatMap Lexeme.tokens).filterMap Sketch.ofToken?)) := by
  obtain ⟨span, root⟩ := job.root_run
  obtain ⟨top, stacked⟩ := job.stack_ending
  refine ⟨top.children.filterMap (Tree.sketch? keepsEmpty), ?_, ?_⟩
  · rw [sketches, stacked]
    rfl
  · have row : shown job.scene job.ending.2 = top.children.reverse := by
      rw [shown, stacked]
      rfl
    have leaves : Tree.sketch? keepsEmpty ∘ Tree.leaf = Sketch.ofToken? :=
      funext fun token => by rw [Function.comp, Tree.sketch?]
    rw [root, row, Tree.sketch?, Tree.sketchRow_eq_filterMap, List.filterMap_append,
      List.filterMap_reverse, List.filterMap_map, Sketch.ofNode?, if_neg (by simp)]
    rfl

theorem sketch?_eq_of_twins
    (twins : (job.parses aligned).Twins job.ending.2 (job.on other).ending.2) :
    ∃ sketch, job.run.parse.root.sketch? keepsEmpty = some sketch ∧
      (job.on other).run.parse.root.sketch? keepsEmpty = some sketch := by
  obtain ⟨row, rowsLeft, rootLeft⟩ := job.sketch?_root_run
  obtain ⟨second, rowsRight, rootRight⟩ := (job.on other).sketch?_root_run
  have rows : row = second := by
    have same : sketches keepsEmpty job.scene job.ending.2 =
      sketches keepsEmpty (job.on other).scene (job.on other).ending.2 := twins.rows
    rw [rowsLeft, rowsRight] at same
    exact List.head_eq_of_cons_eq same
  rw [← rows, ← Matched.filterMap_ofToken? twins.ahead] at rootRight
  exact ⟨_, rootLeft, rootRight⟩

end Job

namespace Parse

/--
Two texts with the same significant tokens at the same columns, where the same
ones are the first on their lines, have the same tree, once trivia and comments
that never closed, error nodes without children, and places are left out.
-/
theorem sketch_root_eq_of_landmarks (options : ParseOptions) (seed : OperatorTable)
    (isCancelled : Nat → Bool) (left right : String)
    (aligned : Layout.landmarks options.tabWidth left =
      Layout.landmarks options.tabWidth right) :
    ∃ sketch, (run options seed isCancelled left).parse.root.sketch? false = some sketch ∧
      (run options seed isCancelled right).parse.root.sketch? false = some sketch := by
  have seen : Grammar.Aligned false
      (Grammar.Lexeme.group (Layout.tokens options.tabWidth left))
      (Grammar.Lexeme.group (Layout.tokens options.tabWidth right)) :=
    Grammar.aligned_of_landmarks aligned nofun nofun nofun
  exact Job.sketch?_eq_of_twins ⟨options, seed, isCancelled, left⟩ seen
    (Grammar.agree_execute _ Grammar.wholeModule (Job.twins_opening _ seen)).twins

theorem sketch_root_eq_of_comments :
    Layout.landmarks 8 "x=(\n y\x7b-" = Layout.landmarks 8 "x=(--\n\n y" ∧
      ∃ sketch,
        (run {} .empty (fun _ => false) "x=(\n y\x7b-").parse.root.sketch? false =
            some sketch ∧
          (run {} .empty (fun _ => false) "x=(--\n\n y").parse.root.sketch? false =
            some sketch := by
  have aligned : Layout.landmarks 8 "x=(\n y\x7b-" = Layout.landmarks 8 "x=(--\n\n y" := by
    decide +kernel
  exact ⟨aligned, sketch_root_eq_of_landmarks {} .empty (fun _ => false) _ _ aligned⟩

end Parse

end Offside
