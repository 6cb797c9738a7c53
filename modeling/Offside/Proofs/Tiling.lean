import Offside.Proofs.Lossless

/-!
# Spans tile the text

The tokens of a text follow each other without gap or overlap, and so do the
virtual tokens between them, which are empty.  Every mark of a trail keeps the
row of finished trees free of gaps up to the place that has been reached: a
node spans its children, and a node without children is empty at the place
where it was opened.  So the spans of a whole tree fit together.
-/

namespace Offside

/-- The spans follow each other without gap or overlap from `start` to `stop`. -/
def Span.Abut : (start : Nat) → List Span → (stop : Nat) → Prop
  | start, [], stop => start = stop
  | start, span :: rest, stop => span.start = start ∧ Abut span.stop rest stop

namespace Span.Abut

variable {start middle stop : Nat} {left right spans : List Span}

theorem append_iff :
    Abut start (left ++ right) stop ↔
      ∃ middle, Abut start left middle ∧ Abut middle right stop := by
  induction left generalizing start with
  | nil => simp [Abut]
  | cons span rest ih => simp [Abut, ih, and_assoc]

theorem start_unique {other : Nat} (nonempty : spans ≠ []) (one : Abut start spans stop)
    (two : Abut other spans middle) : start = other := by
  cases spans with
  | nil => exact absurd rfl nonempty
  | cons span rest => exact one.1.symm.trans two.1

end Span.Abut

/-! ### Tokens -/

namespace Token

theorem Laid.abut {offset : Nat} {tokens : List Token} (laid : Laid offset tokens) :
    Span.Abut offset (tokens.map Token.span) (offset + (textOf tokens).utf8ByteSize) := by
  induction tokens generalizing offset with
  | nil => rfl
  | cons token rest ih =>
    obtain ⟨own, later⟩ := laid
    rw [textOf_cons, String.utf8ByteSize_append, ← Nat.add_assoc, List.map_cons, own]
    exact ⟨rfl, ih later⟩

end Token

namespace Tree

/--
The children of a node tile its span, so that a node without children is
empty, and its diagnostic is about its span.
-/
structure Tiled (tree : Tree) : Prop where
  abut : Span.Abut tree.span.start (tree.children.map span) tree.span.stop
  payload : ∀ diagnostic ∈ tree.error?, diagnostic.span = tree.span

@[simp]
theorem map_span_map_leaf (tokens : List Token) :
    (tokens.map leaf).map span = tokens.map Token.span := by
  simp [span]

mutual

theorem abut_leaves : (tree : Tree) → (∀ node ∈ tree.nodes, Tiled node) →
    Span.Abut tree.span.start (tree.leaves.map Token.span) tree.span.stop
  | leaf _, _ => ⟨rfl, rfl⟩
  | node _ _ _ children, tiled =>
    abut_forestLeaves children (tiled _ (List.mem_cons_self ..)).abut fun inner member =>
      tiled inner (List.mem_cons_of_mem _ member)

theorem abut_forestLeaves : {start stop : Nat} → (row : List Tree) →
    Span.Abut start (row.map span) stop → (∀ node ∈ forestNodes row, Tiled node) →
    Span.Abut start ((forestLeaves row).map Token.span) stop
  | _, _, [], abut, _ => abut
  | _, _, tree :: rest, abut, tiled => by
    rw [forestLeaves, List.map_append]
    refine Span.Abut.append_iff.mpr ⟨tree.span.stop, ?_, ?_⟩
    · rw [← abut.1]
      exact abut_leaves tree fun inner member =>
        tiled inner (List.mem_append_left _ member)
    · exact abut_forestLeaves rest abut.2 fun inner member =>
        tiled inner (List.mem_append_right _ member)

end

variable {openedAt : Nat} {row : List Tree}

theorem spanOf_of_abut {start stop : Nat} (abut : Span.Abut start (row.map span) stop)
    (idle : row = [] → openedAt = start) : spanOf openedAt row = ⟨start, stop⟩ := by
  rcases List.eq_nil_or_concat row with rfl | ⟨front, last, rfl⟩
  · rw [idle rfl, show start = stop from abut]
    rfl
  · rw [List.concat_eq_append] at abut ⊢
    have ends : last.span.stop = stop := by
      rw [List.map_append] at abut
      obtain ⟨middle, -, -, ends⟩ := Span.Abut.append_iff.mp abut
      exact ends
    cases front with
    | nil => rw [← ends, ← abut.1]; rfl
    | cons first rest =>
      rw [← ends, ← abut.1, spanOf, List.getLast?_concat]
      rfl

theorem tiled_ofChildren (kind : NodeKind) (error : Option Diagnostic) {start stop : Nat}
    (abut : Span.Abut start (row.map span) stop) (idle : row = [] → openedAt = start) :
    Tiled (ofChildren kind error openedAt row) where
  abut := by
    rw [ofChildren, spanOf_of_abut abut idle]
    exact abut
  payload diagnostic member := by
    obtain ⟨given, -, rfl⟩ := Option.map_eq_some_iff.mp member
    rfl

/-! ### Trails -/

namespace Direct

/--
The finished trees leave no gap up to the place reached, and a node that holds
nothing yet, also not in the nodes opened in it, was opened at that place.
-/
structure Seamless (state : State) : Prop where
  row : ∃ start, Span.Abut start ((rowOf state.stack).map span) state.offset
  idle : ∀ above frame below, state.stack = above ++ frame :: below →
    rowOf (above ++ [frame]) = [] → frame.openedAt = state.offset
  nodes : ∀ tree ∈ forestNodes (rowOf state.stack), Tiled tree

variable {state : State}

theorem seamless_of_stack_nil (isEmpty : state.stack = []) : Seamless state where
  row := ⟨state.offset, by rw [isEmpty]; rfl⟩
  idle above frame below split := by simp [isEmpty] at split
  nodes tree member := by simp [isEmpty, rowOf, forestNodes] at member

theorem Seamless.adopt (tree : Tree) (frame : Frame) (below : List Frame) {start : Nat}
    (stacked : state.stack = { frame with children := tree :: frame.children } :: below)
    (abut : Span.Abut start ((rowOf (frame :: below)).map span) tree.span.start)
    (ends : tree.span.stop = state.offset)
    (tiled : ∀ node ∈ forestNodes (rowOf (frame :: below)), Tiled node)
    (own : ∀ node ∈ tree.nodes, Tiled node) : Seamless state := by
  have row : rowOf state.stack = rowOf (frame :: below) ++ [tree] := by
    simp [stacked, rowOf]
  refine ⟨⟨start, ?_⟩, ?_, ?_⟩
  · rw [row, List.map_append]
    exact Span.Abut.append_iff.mpr ⟨_, abut, rfl, ends⟩
  · intro above other rest split isEmpty
    rw [stacked] at split
    -- The tree stands in the innermost open node, so no node holds nothing.
    cases above with
    | nil =>
      obtain ⟨rfl, -⟩ := List.cons.inj split
      simp [rowOf] at isEmpty
    | cons top above =>
      obtain ⟨rfl, -⟩ := List.cons.inj split
      simp [rowOf] at isEmpty
  · intro node member
    rw [row, forestNodes_append] at member
    rcases List.mem_append.mp member with old | new
    · exact tiled node old
    · refine own node ?_
      simpa [forestNodes] using new

theorem Seamless.start (seamless : Seamless state) : Seamless (state.step .start) where
  row := by
    obtain ⟨start, abut⟩ := seamless.row
    exact ⟨start, by simpa [State.step, rowOf] using abut⟩
  idle above frame below split isEmpty := by
    cases above with
    | nil =>
      obtain ⟨rfl, -⟩ := List.cons.inj split
      rfl
    | cons top above =>
      obtain ⟨rfl, earlier⟩ := List.cons.inj split
      exact seamless.idle above frame below earlier (by simpa [rowOf] using isEmpty)
  nodes := by simpa [State.step, rowOf] using seamless.nodes

theorem Seamless.token (seamless : Seamless state) {token : Token} {rest : List Token}
    (tokens : state.tokens = token :: rest) (next : token.span.start = state.offset) :
    Seamless (state.step .token) := by
  cases stacked : state.stack with
  | nil =>
    refine seamless_of_stack_nil ?_
    simp [State.step, tokens, State.adopt, stacked, isNode]
  | cons frame below =>
    obtain ⟨start, abut⟩ := seamless.row
    rw [stacked, ← next] at abut
    have nodes := seamless.nodes
    rw [stacked] at nodes
    refine Seamless.adopt (leaf token) frame below ?_ abut ?_ nodes
      (List.forall_mem_nil _)
    · rw [State.step_token stacked tokens]
    · rw [State.step_token stacked tokens]
      rfl

theorem Seamless.finish (seamless : Seamless state) (kind : NodeKind)
    (error : Option Diagnostic) : Seamless (state.step (.finish kind error)) := by
  match stacked : state.stack with
  | [] => simpa [State.step, stacked] using seamless
  | [frame] =>
    refine seamless_of_stack_nil ?_
    simp [State.step, stacked, State.adopt, ofChildren, isNode]
  | frame :: parent :: below =>
    obtain ⟨start, abut⟩ := seamless.row
    have nodes := seamless.nodes
    rw [stacked, rowOf] at abut nodes
    rw [List.map_append] at abut
    obtain ⟨middle, outer, inner⟩ := Span.Abut.append_iff.mp abut
    have idle : frame.children.reverse = [] → frame.openedAt = middle := by
      intro isEmpty
      rw [seamless.idle [] frame _ stacked (by simpa [rowOf] using isEmpty)]
      rw [isEmpty] at inner
      exact inner.symm
    have spans := spanOf_of_abut inner idle
    have begins : Span.Abut start ((rowOf (parent :: below)).map span)
        (ofChildren kind error frame.openedAt frame.children.reverse).span.start := by
      rw [ofChildren, spans]
      exact outer
    refine Seamless.adopt _ parent below ?_ begins ?_ ?_ ?_
    · rw [State.step_finish kind error stacked]
    · rw [ofChildren, span, spans, State.step_finish kind error stacked]
    · intro node member
      refine nodes node ?_
      rw [forestNodes_append]
      exact List.mem_append_left _ member
    · intro node member
      rcases List.mem_cons.mp member with rfl | inside
      · exact tiled_ofChildren kind error inner idle
      · refine nodes node ?_
        rw [forestNodes_append]
        exact List.mem_append_right _ inside

theorem Seamless.of_row {other : State} (seamless : Seamless state)
    (row : rowOf other.stack = rowOf state.stack) (offset : other.offset = state.offset)
    (idle : ∀ above frame below, other.stack = above ++ frame :: below →
      rowOf (above ++ [frame]) = [] → frame.openedAt = other.offset) : Seamless other where
  row := by
    rw [row, offset]
    exact seamless.row
  idle := idle
  nodes := by
    rw [row]
    exact seamless.nodes

theorem Seamless.abandon (seamless : Seamless state) : Seamless (state.step .abandon) := by
  match stacked : state.stack with
  | [] => exact seamless_of_stack_nil (by simp [State.step, stacked])
  | [frame] => exact seamless_of_stack_nil (by simp [State.step, stacked])
  | frame :: parent :: below =>
    rw [State.step_abandon stacked]
    refine seamless.of_row (by simp [stacked, rowOf]) rfl ?_
    intro above other rest split isEmpty
    cases above with
    | nil =>
      obtain ⟨rfl, rfl⟩ := List.cons.inj split
      exact seamless.idle [frame] parent below stacked
        (by simpa [rowOf] using isEmpty)
    | cons top above =>
      obtain ⟨rfl, rfl⟩ := List.cons.inj split
      exact seamless.idle (frame :: parent :: above) other rest stacked
        (by simpa [rowOf] using isEmpty)

theorem Seamless.precede (seamless : Seamless state) (after : Nat) :
    Seamless (state.step (.precede after)) := by
  cases stacked : state.stack with
  | nil => simpa [State.step, stacked] using seamless
  | cons frame below =>
    have same : (frame.children.drop (after + 1)).reverse ++
        (frame.children.take (after + 1)).reverse = frame.children.reverse := by
      rw [← List.reverse_append, List.take_append_drop]
    have stepped : (state.step (.precede after)).stack =
        ⟨state.offset, frame.children.take (after + 1)⟩ ::
          { frame with children := frame.children.drop (after + 1) } :: below := by
      simp only [State.step, stacked]
    have offset : (state.step (.precede after)).offset = state.offset := by
      simp only [State.step, stacked]
    refine seamless.of_row ?_ offset ?_
    · simp only [stepped, stacked, rowOf, List.append_assoc, same]
    · intro above other rest split isEmpty
      rw [stepped] at split
      rw [offset]
      rcases above with _ | ⟨top, _ | ⟨second, above⟩⟩
      · obtain ⟨rfl, -⟩ := List.cons.inj split
        rfl
      · obtain ⟨rfl, behind⟩ := List.cons.inj split
        obtain ⟨rfl, rfl⟩ := List.cons.inj behind
        refine seamless.idle [] frame below stacked ?_
        simpa only [rowOf, same, List.singleton_append, List.nil_append] using isEmpty
      · obtain ⟨rfl, behind⟩ := List.cons.inj split
        obtain ⟨rfl, rfl⟩ := List.cons.inj behind
        refine seamless.idle (frame :: above) other rest stacked ?_
        simpa only [rowOf, List.append_assoc, same, List.cons_append] using isEmpty

/-- What is left of the tokens goes on where the row of finished trees ends. -/
def Follows (stop : Nat) (state : State) : Prop :=
  Span.Abut state.offset (state.tokens.map Token.span) stop

theorem Seamless.step {stop : Nat} (seamless : Seamless state) (follows : Follows stop state)
    (mark : Mark) : Seamless (state.step mark) ∧ Follows stop (state.step mark) := by
  cases mark with
  | start => exact ⟨seamless.start, follows⟩
  | token =>
    cases tokens : state.tokens with
    | nil => simpa [State.step, tokens] using ⟨seamless, follows⟩
    | cons token rest =>
      rw [Follows, tokens] at follows
      refine ⟨seamless.token tokens follows.1, ?_⟩
      have later : (state.step .token).tokens = rest ∧
          (state.step .token).offset = token.span.stop := by
        cases stacked : state.stack with
        | nil => simp [State.step, tokens, State.adopt, stacked, isNode]
        | cons frame below => rw [State.step_token stacked tokens]; exact ⟨rfl, rfl⟩
      rw [Follows, later.1, later.2]
      exact follows.2
  | finish kind error =>
    refine ⟨seamless.finish kind error, ?_⟩
    rcases stacked : state.stack with _ | ⟨frame, _ | ⟨parent, below⟩⟩
    · simpa [State.step, stacked] using follows
    · simpa [State.step, stacked, State.adopt, ofChildren, isNode, Follows] using follows
    · rw [State.step_finish kind error stacked]
      exact follows
  | abandon =>
    refine ⟨seamless.abandon, ?_⟩
    rcases stacked : state.stack with _ | ⟨frame, _ | ⟨parent, below⟩⟩
    · simpa [State.step, stacked, Follows] using follows
    · simpa [State.step, stacked, Follows] using follows
    · rw [State.step_abandon stacked]
      exact follows
  | precede after =>
    refine ⟨seamless.precede after, ?_⟩
    cases stacked : state.stack with
    | nil => simpa [State.step, stacked] using follows
    | cons frame below => simpa [State.step, stacked, Follows] using follows

theorem seamless_run {stop : Nat} {tokens : List Token}
    (abut : Span.Abut 0 (tokens.map Token.span) stop) (trail : List Mark) :
    Seamless (run tokens trail) ∧ Follows stop (run tokens trail) := by
  induction trail using List.reverseRecOn with
  | nil => exact ⟨seamless_of_stack_nil rfl, abut⟩
  | append_singleton trail mark ih =>
    rw [run, List.foldl_append]
    exact ih.1.step ih.2 mark

end Direct

theorem appendLeaves_ofChildren (kind : NodeKind) {start stop : Nat} {tokens : List Token}
    (nonempty : row ++ tokens.map leaf ≠ [])
    (abut : Span.Abut start ((row ++ tokens.map leaf).map span) stop) :
    appendLeaves tokens (ofChildren kind none openedAt row) =
      node kind ⟨start, stop⟩ none (row ++ tokens.map leaf) := by
  rw [ofChildren, appendLeaves]
  split
  · next nothing =>
      rw [List.isEmpty_iff.mp nothing, List.map_nil, List.append_nil] at nonempty abut ⊢
      rw [spanOf_of_abut abut fun isEmpty => absurd isEmpty nonempty]
      rfl
  · dsimp only
    rw [spanOf_of_abut abut fun isEmpty => absurd isEmpty nonempty]
    rfl

end Tree

/-! ### Whole texts -/

theorem Grammar.Draws.abut_shown {scene : Grammar.Scene} {state : Grammar.State}
    {pending : List Token} {stop : Nat} (draws : Grammar.Draws scene state pending)
    (kept : Tree.forestLeaves (Grammar.shown scene state) ++ pending = scene.tokens)
    (whole : Span.Abut 0 (scene.tokens.map Token.span) stop) (nonempty : scene.tokens ≠ []) :
    Span.Abut 0 ((Grammar.shown scene state ++ pending.map Tree.leaf).map Tree.span) stop ∧
      ∀ tree ∈ Tree.forestNodes (Grammar.shown scene state), tree.Tiled := by
  obtain ⟨seamless, follows⟩ := Tree.Direct.seamless_run whole state.trail.toList
  obtain ⟨start, row⟩ := seamless.row
  have tiled : ∀ tree ∈ Tree.forestNodes (Grammar.shown scene state), tree.Tiled :=
    seamless.nodes
  have abut : Span.Abut start
      ((Grammar.shown scene state ++ pending.map Tree.leaf).map Tree.span) stop := by
    rw [List.map_append, Tree.map_span_map_leaf, ← draws.left]
    exact Span.Abut.append_iff.mpr ⟨_, row, follows⟩
  -- The leaves are all tokens, so the row starts where the first token does.
  have leaves := Tree.abut_forestLeaves _ abut (by simpa using tiled)
  rw [Tree.forestLeaves_append, Tree.forestLeaves_map_leaf, kept] at leaves
  have isZero : start = 0 :=
    Span.Abut.start_unique (by simpa using nonempty) leaves whole
  rw [isZero] at abut
  exact ⟨abut, tiled⟩

/--
The root spans the text.  Its children tile the text, as the children of every
node below tile that node, and its leaves are the tokens of the text.
-/
theorem Job.tiled_root (job : Job) :
    ∃ children, job.run.parse.root =
        .node .wholeModule ⟨0, job.source.utf8ByteSize⟩ none children ∧
      Span.Abut 0 (children.map Tree.span) job.source.utf8ByteSize ∧
      (∀ node ∈ Tree.forestNodes children, node.Tiled) ∧
      Tree.forestLeaves children = job.tokens := by
  obtain ⟨top, stacked, built⟩ := job.root_run_eq
  have draws := job.ending_synchronous
  have kept := job.leaves_ending
  have isTokens : job.scene.tokens = job.tokens := rfl
  have whole := (Layout.laid_tokens job.options.tabWidth job.source).abut
  rw [Layout.textOf_tokens, Nat.zero_add] at whole
  change Span.Abut 0 (job.tokens.map Token.span) _ at whole
  have nonempty : job.tokens ≠ [] := by
    obtain ⟨front, stop, split, -⟩ := job.tokens_end
    simp [split]
  generalize job.scene = scene at *
  generalize job.ending.2 = final at *
  rw [← isTokens] at whole nonempty kept ⊢
  rw [Grammar.Synchronous] at draws
  have left := draws.left
  rw [← left] at draws kept
  obtain ⟨abut, tiled⟩ := draws.abut_shown kept whole nonempty
  have row : Grammar.shown scene final = top.children.reverse := by
    rw [Grammar.shown, stacked]
    rfl
  rw [row] at abut tiled kept
  have children : top.children.reverse ++
      (Grammar.drawn scene final).tokens.map Tree.leaf ≠ [] := by
    intro nothing
    obtain ⟨noKids, noTokens⟩ := List.append_eq_nil_iff.mp nothing
    rw [noKids, List.map_eq_nil_iff.mp noTokens] at kept
    exact nonempty kept.symm
  refine ⟨_, built.trans (Tree.appendLeaves_ofChildren .wholeModule children abut), abut, ?_, ?_⟩
  · rw [Tree.forestNodes_append, Tree.forestNodes_map_leaf, List.append_nil]
    exact tiled
  · rw [Tree.forestLeaves_append, Tree.forestLeaves_map_leaf]
    exact kept

/--
The spans of a tree fit together.  The root spans the text.  The children of
every node follow each other without gap or overlap from its start to its end,
so a node without children is empty; and the diagnostic of a node has the span
of the node.  That holds of every run, also of one that is given up.
-/
theorem Parse.root_run_tiled (options : ParseOptions) (seed : OperatorTable)
    (isCancelled : Nat → Bool) (source : String) :
    (run options seed isCancelled source).parse.root.span =
        ⟨0, source.utf8ByteSize⟩ ∧
      ∀ tree ∈ (run options seed isCancelled source).parse.root.descendants,
        tree.Tiled := by
  obtain ⟨children, root, abut, tiled, -⟩ :=
    Job.tiled_root ⟨options, seed, isCancelled, source⟩
  rw [root, Tree.descendants_eq_nodes, Tree.nodes]
  refine ⟨rfl, List.forall_mem_cons.mpr ⟨⟨abut, ?_⟩, tiled⟩⟩
  exact fun diagnostic member => absurd member (Option.not_mem_none diagnostic)

end Offside
