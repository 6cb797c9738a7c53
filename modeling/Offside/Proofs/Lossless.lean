import Offside.Parse
import Offside.Proofs.Construction
import Offside.Proofs.LayoutRun

/-!
# Trees without loss

A parse starts with all tokens of the text ahead, each with the trivia in
front of it.  The run keeps every token, whether it reads it, skips it or
never gets to it, so the leaves of the root are the tokens of the text, in
order and each once.
-/

namespace Offside.Grammar

/-! ### Tokens with their trivia -/

namespace Lexeme

theorem flatMap_tokens_groupFrom {last : Token} (visible : last.kind.isVisible = true)
    (trivia front : List Token) :
    (groupFrom trivia (front ++ [last])).flatMap tokens = trivia ++ (front ++ [last]) := by
  induction front generalizing trivia with
  | nil => simp [groupFrom, visible, tokens]
  | cons token rest ih =>
    rw [List.cons_append, groupFrom]
    split
    · rw [List.flatMap_cons, ih, tokens]
      simp
    · rw [ih]
      simp

theorem seen_groupFrom {trivia : List Token} (source : List Token)
    (hidden : ∀ token ∈ trivia, token.kind.isVisible = false) :
    ∀ lexeme ∈ groupFrom trivia source, lexeme.token.kind.isVisible = true ∧
      ∀ token ∈ lexeme.trivia, token.kind.isVisible = false := by
  induction source generalizing trivia with
  | nil => nofun
  | cons token rest ih =>
    rw [groupFrom]
    split
    · next visible =>
        intro lexeme member
        rcases List.mem_cons.mp member with rfl | later
        · exact ⟨visible, hidden⟩
        · exact ih (List.forall_mem_nil _) lexeme later
    · next invisible =>
        refine ih fun other member => ?_
        rcases List.mem_append.mp member with old | new
        · exact hidden other old
        · rw [List.mem_singleton.mp new]
          exact Bool.eq_false_iff.mpr invisible

theorem map_token_groupFrom (trivia source : List Token) :
    (groupFrom trivia source).map token =
      source.filter fun token => token.kind.isVisible := by
  induction source generalizing trivia with
  | nil => rfl
  | cons token rest ih =>
    rw [groupFrom]
    split
    · next visible => rw [List.map_cons, ih, List.filter_cons, if_pos visible]
    · next invisible => rw [ih, List.filter_cons, if_neg invisible]

end Lexeme

end Offside.Grammar

namespace Offside

/-- A text to parse, and how to parse it. -/
structure Job where
  options : ParseOptions
  seed : OperatorTable
  isCancelled : Nat → Bool
  source : String

namespace Job

/-- The job of parsing a text with the standard fixities and nobody to give up. -/
@[reducible]
def ofSource (source : String) : Job :=
  ⟨{}, .standard, fun _ => false, source⟩

open Offside.Grammar
open Offside.Tree (forestLeaves)

variable (job : Job)

@[reducible]
def run : ParseRun :=
  Parse.run job.options job.seed job.isCancelled job.source

@[reducible]
def tokens : List Token :=
  Layout.tokens job.options.tabWidth job.source

theorem tokens_end : ∃ front stop, job.tokens = front ++ [Token.virtual .eof stop] ∧
    ∀ token ∈ front, token.kind ≠ .eof :=
  Layout.tokens_end job.options.tabWidth job.source

/-! ### The beginning of a run -/

def scene : Scene :=
  { setting := Parse.setting job.options job.isCancelled job.source.utf8ByteSize
      (Lexeme.group job.tokens)
    tokens := job.tokens
    table := Parse.openingTable job.options job.seed job.tokens }

def opening : State :=
  ({ ahead := Lexeme.group job.tokens, operators := job.scene.table } : State).mark .start

/-- Whether the run was given up, and the state in which the root is still open. -/
def ending : Bool × State :=
  wholeModule.execute job.scene.setting job.opening

theorem flatMap_tokens_opening : job.opening.ahead.flatMap Lexeme.tokens = job.tokens := by
  obtain ⟨front, stop, split, -⟩ := job.tokens_end
  show (Lexeme.group job.tokens).flatMap Lexeme.tokens = _
  rw [split, Lexeme.group, Lexeme.flatMap_tokens_groupFrom rfl, List.nil_append]

theorem sheet_opening : sheet job.scene job.opening = ([], job.tokens) := by
  rw [sheet, flatMap_tokens_opening]
  rfl

theorem opening_synchronous : Synchronous job.scene job.opening := by
  rw [Synchronous, flatMap_tokens_opening]
  exact {
    linked := ⟨_, (Tree.linked_init _).start⟩
    opened := List.cons_ne_nil _ _
    ended := fun finished => absurd finished (not_finished_mark rfl)
    left := rfl
    offset := rfl
    laid := Layout.laid_tokens job.options.tabWidth job.source
    recent := by rintro _ ⟨⟩
    apart := List.nodup_nil
    earlier := List.forall_mem_nil _
    filled := List.forall_mem_nil _ }

theorem opening_intact : Intact job.scene job.opening where
  opened := job.opening_synchronous.opened
  left := job.opening_synchronous.left
  seen := Lexeme.seen_groupFrom _ (List.forall_mem_nil _)

theorem opening_ample : job.opening.ahead.length < job.scene.setting.rounds :=
  Nat.lt_add_of_pos_right (by decide)

/-! ### The end of a run -/

/-- The rules of a parse, where the question may be asked whether to give up or not. -/
def conduct (asks : Bool) : Conduct where
  scene := job.scene
  asks := asks
  turns := Nat.succ_pos _
  run := runRule _ scriptOf (callBound job.scene.setting.rounds)
  proceeds := (conducts_runRule _ asks (Nat.succ_pos _) _).1
  closes := (conducts_runRule _ asks (Nat.succ_pos _) _).2

theorem ending_eq_run (asks : Bool) :
    job.ending = wholeModule.run (job.conduct asks).scene.setting (job.conduct asks).run
      job.opening :=
  rfl

theorem constructs_ending :
    ∃ last, Constructs job.scene .top job.opening last ∧
      (job.ending.1 = true ∧ job.ending.2 = last ∨
        kindAhead job.scene last 0 = .eof ∧
          job.ending = (false, last.bump job.scene.setting)) := by
  obtain ⟨last, proceeds, ends⟩ :=
    @proceeds_wholeModule (job.conduct true) _ rfl job.opening_ample
  exact ⟨last, proceeds.constructs job.opening_intact job.opening_ample, ends⟩

/--
A run that is not given up takes the end of the text last, behind what
productions have built from the tokens in front of it.
-/
theorem builds_ending (finished : job.ending.1 = false) :
    ∃ row stop, sheet job.scene job.ending.2 = (row ++ [.leaf (Token.virtual .eof stop)], []) ∧
      Builds job.source.utf8ByteSize 0 .top ([], job.tokens)
        (row, [Token.virtual .eof stop]) := by
  obtain ⟨last, constructs, gaveUp | ⟨atEnd, bumped⟩⟩ := job.constructs_ending
  · rw [finished] at gaveUp
    cases gaveUp.1
  obtain ⟨front, stop, split, others⟩ := job.tokens_end
  have builds := constructs.builds
  rw [sheet_opening] at builds
  rw [bumped]
  cases found : last.ahead with
  | nil =>
    -- Then the end of the text would be among the trees.
    obtain ⟨taken, -, pending, onward⟩ := builds.takes
    rw [sheet, found, List.flatMap_nil, List.append_nil] at pending
    refine absurd rfl (onward (Token.virtual .eof stop) ?_)
    rw [← show _ = taken from pending, split]
    exact List.mem_append_right front List.mem_cons_self
  | cons lexeme rest =>
    obtain ⟨-, junk, row, grafts, -⟩ := constructs.intact.bump Phase.top.allows found
    have whole := builds.trans (.graft 0 .top _ grafts)
    have isEof : lexeme.token.kind = .eof := by
      rw [kindAhead, State.tokenAt, found] at atEnd
      exact atEnd
    obtain ⟨taken, -, pending, -⟩ := whole.takes
    rw [split] at pending
    rcases concat_eq_append_cons pending with ⟨more, rfl, -⟩ | ⟨-, isLast, nothing⟩
    · exact absurd isEof (others lexeme.token (List.mem_append_right _ List.mem_cons_self))
    · rw [nothing, isLast] at row whole
      exact ⟨_, stop, row, whole⟩

theorem ending_ahead (finished : job.ending.1 = false) : job.ending.2.ahead = [] := by
  obtain ⟨row, stop, all, -⟩ := job.builds_ending finished
  have nothing := (Prod.mk.inj all).2
  cases found : job.ending.2.ahead with
  | nil => rfl
  | cons lexeme rest => simp [found, Lexeme.tokens] at nothing

theorem ending_synchronous : Synchronous job.scene job.ending.2 := by
  obtain ⟨last, constructs, ends⟩ := job.constructs_ending
  have draws := constructs.draws job.opening_synchronous
  rcases ends with gaveUp | bumped
  · rw [gaveUp.2]
    exact draws
  · rw [bumped.2]
    exact draws.bump

theorem ending_retains : Retains job.scene job.opening job.ending.2 := by
  obtain ⟨last, constructs, ends⟩ := job.constructs_ending
  rcases ends with gaveUp | bumped
  · rw [gaveUp.2]
    exact constructs.retains
  · rw [bumped.2]
    exact constructs.retains.trans (retains_bump constructs.intact.opened _)

theorem run_eq :
    job.run =
      { parse :=
          { root := Tree.ofTrail job.tokens
              (job.ending.2.mark (.finish .wholeModule none)).trail.toList
            operators := job.ending.2.operators }
        cancelled := job.ending.1
        polls := job.ending.2.polls } := by
  unfold run Parse.run readModule ending opening scene
  dsimp only
  generalize wholeModule.execute _ _ = outcome
  rfl

theorem cancelled_run : job.run.cancelled = job.ending.1 := by
  rw [run_eq]

theorem polls_run : job.run.polls = job.ending.2.polls := by
  rw [run_eq]

theorem operators_run : job.run.parse.operators = job.ending.2.operators := by
  rw [run_eq]

theorem stack_ending : ∃ top, stack job.scene job.ending.2 = [top] := by
  have retains := job.ending_retains
  obtain ⟨top, below, stacked⟩ := List.exists_cons_of_ne_nil retains.opened
  have nothing := retains.below
  rw [stacked] at nothing
  exact ⟨top, by rw [stacked, show below = [] from nothing]⟩

theorem shown_ending : shown job.scene job.ending.2 = (kids job.scene job.ending.2).reverse := by
  obtain ⟨top, stacked⟩ := job.stack_ending
  rw [shown, kids, stacked]
  rfl

theorem appendLeaves_node (tokens : List Token) (kind : NodeKind) (span : Span)
    (error : Option Diagnostic) (children : List Tree) :
    ∃ wider, Tree.appendLeaves tokens (.node kind span error children) =
      .node kind wider error (children ++ tokens.map .leaf) := by
  rw [Tree.appendLeaves]
  split
  · next nothing => exact ⟨span, by rw [List.isEmpty_iff.mp nothing]; simp⟩
  · exact ⟨_, rfl⟩

theorem root_run_eq :
    ∃ top, stack job.scene job.ending.2 = [top] ∧ job.run.parse.root =
        Tree.appendLeaves (drawn job.scene job.ending.2).tokens
          (Tree.ofChildren .wholeModule none top.openedAt top.children.reverse) := by
  have draws := job.ending_synchronous
  obtain ⟨only, stacked⟩ := job.stack_ending
  have unfolded : job.run.parse.root = Tree.build job.tokens
      (recorder (job.ending.2.mark (.finish .wholeModule none))).events := by
    rw [run_eq, recorder, ← Trail.events, ← Tree.ofTrail]
  rw [unfolded, recorder_mark]
  have frames := draws.toRecords.recorder_length
  obtain ⟨dead, linked⟩ := draws.linked
  rw [stacked, List.length_singleton, List.length_eq_one_iff] at frames
  obtain ⟨frame, last⟩ := frames
  exact linked.build_finish .wholeModule none last

theorem root_run :
    ∃ span, job.run.parse.root = .node .wholeModule span none
      (shown job.scene job.ending.2 ++
        (job.ending.2.ahead.flatMap Lexeme.tokens).map .leaf) := by
  have left := job.ending_synchronous.left
  obtain ⟨top, stacked, built⟩ := job.root_run_eq
  have row : shown job.scene job.ending.2 = top.children.reverse := by
    rw [shown, stacked]
    rfl
  rw [← left, row]
  obtain ⟨span, appended⟩ := appendLeaves_node (drawn job.scene job.ending.2).tokens .wholeModule
    _ none top.children.reverse
  exact ⟨span, built.trans appended⟩

theorem builds_shown :
    ∃ row ends, shown job.scene job.ending.2 = row ++ ends.map .leaf ∧
      Builds job.source.utf8ByteSize 0 .top ([], job.tokens)
        (row, ends ++ job.ending.2.ahead.flatMap Lexeme.tokens) := by
  have shows := job.shown_ending
  have finishes := job.builds_ending
  obtain ⟨last, constructs, ends⟩ := job.constructs_ending
  generalize job.ending = outcome at shows finishes ends ⊢
  rw [shows]
  rcases ends with gaveUp | bumped
  · have builds := constructs.builds
    rw [sheet_opening] at builds
    rw [gaveUp.2]
    exact ⟨_, [], (List.append_nil _).symm, builds⟩
  · obtain ⟨row, stop, all, builds⟩ := finishes (congrArg Prod.fst bumped.2)
    have left : outcome.2.ahead.flatMap Lexeme.tokens = [] := (Prod.mk.inj all).2
    rw [left]
    exact ⟨row, [Token.virtual .eof stop], (Prod.mk.inj all).1, builds⟩

theorem leaves_ending :
    forestLeaves (shown job.scene job.ending.2) ++
      job.ending.2.ahead.flatMap Lexeme.tokens = job.tokens := by
  obtain ⟨row, ends, shows, builds⟩ := job.builds_shown
  rw [shows, Tree.forestLeaves_append, Tree.forestLeaves_map_leaf, List.append_assoc]
  exact builds.leaves

/--
The root of a run that is not given up has a row of trees as its children and
then the end of the text, and productions have built the row from the tokens.
-/
theorem builds_run (finished : job.ending.1 = false) :
    ∃ span row stop, job.run.parse.root =
        .node .wholeModule span none (row ++ [.leaf (Token.virtual .eof stop)]) ∧
      Builds job.source.utf8ByteSize 0 .top ([], job.tokens) (row, [Token.virtual .eof stop]) := by
  obtain ⟨span, root⟩ := job.root_run
  obtain ⟨row, stop, all, builds⟩ := job.builds_ending finished
  rw [job.ending_ahead finished, shown_ending, show _ = row ++ _ from (Prod.mk.inj all).1,
    List.flatMap_nil, List.map_nil, List.append_nil] at root
  exact ⟨span, row, stop, root, builds⟩

theorem descendants_root_run :
    ∃ span children, job.run.parse.root.descendants =
      .node .wholeModule span none children ::
        Tree.forestNodes (shown job.scene job.ending.2) := by
  obtain ⟨span, root⟩ := job.root_run
  rw [root, Tree.descendants_eq_nodes, Tree.nodes, Tree.forestNodes_append,
    Tree.forestNodes_map_leaf, List.append_nil]
  exact ⟨_, _, rfl⟩

theorem leaves_root_run : job.run.parse.root.leaves = job.tokens := by
  obtain ⟨span, root⟩ := job.root_run
  rw [root, Tree.leaves, Tree.forestLeaves_append, Tree.forestLeaves_map_leaf]
  exact job.leaves_ending

end Job

/--
The leaves of the root are the tokens of the text with its layout resolved:
all of them, each once and in order, with the single end of the text last.  So
the root spells the text.  That holds of every run, also of one that is given
up.
-/
theorem Parse.root_run_lossless (options : ParseOptions) (seed : OperatorTable)
    (isCancelled : Nat → Bool) (source : String) :
    (run options seed isCancelled source).parse.root.tokens =
        Layout.tokens options.tabWidth source ∧
      (run options seed isCancelled source).parse.root.text = source ∧
      ∃ front stop, (run options seed isCancelled source).parse.root.tokens =
          front ++ [Token.virtual .eof stop] ∧
        ∀ token ∈ front, token.kind ≠ .eof := by
  have tokens : (run options seed isCancelled source).parse.root.tokens =
      Layout.tokens options.tabWidth source := by
    rw [Tree.tokens_eq_leaves, Job.leaves_root_run ⟨options, seed, isCancelled, source⟩]
  refine ⟨tokens, ?_, ?_⟩
  · rw [Tree.text, tokens, Layout.textOf_tokens]
  · rw [tokens]
    exact Layout.tokens_end options.tabWidth source

end Offside
