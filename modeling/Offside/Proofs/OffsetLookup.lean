import Offside.Proofs.RecoveryPoints
import Offside.Tree.Lookup

/-!
# Looking up an offset is exact

The children of a node tile its span, so one of them and no other holds an
offset that the node holds.  Going down from the root to that child, again and
again, leads to the one token that the offset falls into, and passes every
node whose span holds the offset.
-/

namespace Offside

namespace Tree

def tokensAt (offset : Nat) (tree : Tree) : List Token :=
  tree.tokens.filter fun token => token.span.covers offset

/-- What the lookup finds in the tree is the token at the offset, with the innermost node. -/
structure Pinpoints (offset : Nat) (tree : Tree) (token : Token) : Prop where
  found : tree.tokenAt? offset = some token
  only : tree.tokensAt offset = [token]
  member : tree.covering offset ∈ tree.descendants
  parent : ∀ node ∈ tree.descendants, leaf token ∈ node.children ↔ node = tree.covering offset
  covers : (tree.covering offset).span.covers offset = true
  innermost : ∀ node ∈ tree.descendants, node.span.covers offset = true →
    tree.covering offset ∈ node.descendants

/-- The nodes of the tree are tiled, down to tokens none of which runs backwards. -/
structure Sound (tree : Tree) : Prop where
  tiled : ∀ node ∈ tree.nodes, Tiled node
  forward : ∀ token ∈ tree.leaves, token.span.start ≤ token.span.stop

namespace Sound

variable {offset start stop : Nat} {tree inner : Tree} {kind : NodeKind} {own : Span}
  {error : Option Diagnostic} {children row : List Tree}

theorem start_le_stop (sound : tree.Sound) : tree.span.start ≤ tree.span.stop :=
  Tree.start_le_stop tree sound.tiled sound.forward

theorem covers_of_mem_nodes (sound : tree.Sound) (member : inner ∈ tree.nodes)
    (covers : inner.span.covers offset = true) : tree.span.covers offset = true := by
  have within := (inOrder_nodes tree sound.tiled sound.forward).within inner member
  simp only [Span.covers, Bool.and_eq_true, decide_eq_true_eq] at covers ⊢
  omega

theorem covers_of_mem_leaves (sound : tree.Sound) {token : Token} (member : token ∈ tree.leaves)
    (covers : token.span.covers offset = true) : tree.span.covers offset = true := by
  have within := ((abut_leaves tree sound.tiled).bounds
    (List.forall_mem_map.mpr sound.forward)).2 _ (List.mem_map_of_mem member)
  simp only [Span.covers, Bool.and_eq_true, decide_eq_true_eq] at covers ⊢
  omega

theorem of_child (sound : (node kind own error children).Sound) :
    ∀ child ∈ children, child.Sound := by
  intro child member
  refine ⟨fun inner inside => sound.tiled inner (List.mem_cons_of_mem _ ?_),
    fun token inside => sound.forward token ?_⟩
  · rw [forestNodes_eq_flatMap]
    exact List.mem_flatMap_of_mem member inside
  · rw [leaves, forestLeaves_eq_flatMap]
    exact List.mem_flatMap_of_mem member inside

theorem of_mem_nodes (sound : tree.Sound) (member : inner ∈ tree.nodes) : inner.Sound := by
  refine mem_nodes_induction tree sound (fun parent _ sound child below => ?_) inner member
  cases parent with
  | leaf => cases below
  | node => exact sound.of_child child below

/-- The tree, and no other one of the row, is where the offset is to be sought. -/
structure Singles (offset : Nat) (row : List Tree) (tree : Tree) : Prop where
  member : tree ∈ row
  covers : tree.span.covers offset = true
  only : ∀ other ∈ row, other.span.covers offset = true → other = tree
  among : coveringAmong offset row = if tree.isNode then some (tree.covering offset) else none
  tokens : (row.flatMap leaves).filter (fun token => token.span.covers offset) =
    tree.leaves.filter fun token => token.span.covers offset
  nodes : ∀ inner ∈ row.flatMap nodes, inner.span.covers offset = true → inner ∈ tree.nodes

theorem absent (sound : ∀ tree ∈ row, tree.Sound)
    (quiet : ∀ tree ∈ row, tree.span.covers offset ≠ true) :
    coveringAmong offset row = none ∧
      (row.flatMap leaves).filter (fun token => token.span.covers offset) = [] ∧
      ∀ inner ∈ row.flatMap Tree.nodes, inner.span.covers offset ≠ true := by
  refine ⟨?_, List.filter_eq_nil_iff.mpr ?_, ?_⟩
  · induction row with
    | nil => rw [coveringAmong]
    | cons tree rest ih =>
      obtain ⟨silent, further⟩ := List.forall_mem_cons.mp quiet
      rw [coveringAmong, Bool.eq_false_of_not_eq_true silent, Bool.and_false,
        if_neg Bool.false_ne_true, ih (List.forall_mem_cons.mp sound).2 further]
  · intro token inside covers
    obtain ⟨tree, member, inside⟩ := List.mem_flatMap.mp inside
    exact quiet tree member ((sound tree member).covers_of_mem_leaves inside covers)
  · intro inner inside covers
    obtain ⟨tree, member, inside⟩ := List.mem_flatMap.mp inside
    exact quiet tree member ((sound tree member).covers_of_mem_nodes inside covers)

theorem exists_singles (sound : ∀ tree ∈ row, tree.Sound)
    (abut : Span.Abut start (row.map span) stop) (begins : start ≤ offset)
    (ends : offset < stop) : ∃ tree, Singles offset row tree := by
  induction row generalizing start with
  | nil => exact absurd abut (Nat.ne_of_lt (Nat.lt_of_le_of_lt begins ends))
  | cons tree rest ih =>
    obtain ⟨starts, abut⟩ := abut
    obtain ⟨soundTree, others⟩ := List.forall_mem_cons.mp sound
    by_cases here : offset < tree.span.stop
    · have covers : tree.span.covers offset = true := by
        simp [Span.covers, starts, begins, here]
      have quiet : ∀ other ∈ rest, other.span.covers offset ≠ true := by
        intro other member
        have behind := ((abut.bounds (List.forall_mem_map.mpr fun tree member =>
          (others tree member).start_le_stop)).2 _ (List.mem_map_of_mem member)).1
        simp only [Span.covers, ne_eq, Bool.and_eq_true, decide_eq_true_eq]
        omega
      obtain ⟨uncovered, noTokens, noNodes⟩ := absent others quiet
      refine ⟨tree, List.mem_cons_self, covers, List.forall_mem_cons.mpr ⟨fun _ => rfl, ?_⟩,
        ?_, ?_, ?_⟩
      · exact fun other member also => absurd also (quiet other member)
      · rw [coveringAmong, covers, Bool.and_true, uncovered]
      · rw [List.flatMap_cons, List.filter_append, noTokens, List.append_nil]
      · intro inner inside also
        rw [List.flatMap_cons, List.mem_append] at inside
        exact inside.resolve_right fun later => noNodes inner later also
    · have silent : tree.span.covers offset = false := by simp [Span.covers, here]
      have quiet : ∀ other ∈ [tree], other.span.covers offset ≠ true :=
        List.forall_mem_singleton.mpr (Bool.eq_false_iff.mp silent)
      obtain ⟨-, noTokens, noNodes⟩ := absent (List.forall_mem_singleton.mpr soundTree) quiet
      rw [List.flatMap_singleton] at noTokens noNodes
      obtain ⟨found, single⟩ := ih others abut (Nat.le_of_not_lt here)
      refine ⟨found, List.mem_cons_of_mem _ single.member, single.covers,
        List.forall_mem_cons.mpr ⟨?_, single.only⟩, ?_, ?_, ?_⟩
      · exact fun also => absurd also (Bool.eq_false_iff.mp silent)
      · rw [coveringAmong, silent, Bool.and_false, if_neg Bool.false_ne_true, single.among]
      · rw [List.flatMap_cons, List.filter_append, noTokens, List.nil_append, single.tokens]
      · intro inner inside also
        rw [List.flatMap_cons, List.mem_append] at inside
        exact single.nodes inner (inside.resolve_left fun first => noNodes inner first also) also

theorem exists_child (sound : (node kind own error children).Sound)
    (covers : own.covers offset = true) : ∃ child, Singles offset children child := by
  obtain ⟨begins, ends⟩ := Bool.and_eq_true_iff.mp covers
  exact exists_singles sound.of_child (sound.tiled _ List.mem_cons_self).abut
    (of_decide_eq_true begins) (of_decide_eq_true ends)

/-- The node and its child token are what is found at the offset in the tree. -/
structure Locates (offset : Nat) (tree found : Tree) (token : Token) : Prop where
  member : found ∈ tree.nodes
  child : leaf token ∈ found.children
  own : (found.leaves.filter fun other => other.span.covers offset) = [token]
  only : (tree.leaves.filter fun other => other.span.covers offset) = [token]
  innermost : ∀ inner ∈ tree.nodes, inner.span.covers offset = true → found ∈ inner.nodes

theorem locates : {tree : Tree} → tree.Sound → tree.isNode = true →
    tree.span.covers offset = true → ∃ token, Locates offset tree (tree.covering offset) token
  | node kind own error children, sound, _, covers => by
    obtain ⟨child, single⟩ := sound.exists_child covers
    have lighter : child.weight < (node kind own error children).weight := by
      obtain ⟨front, back, rfl⟩ := List.append_of_mem single.member
      rw [weight, forestWeight_append, forestWeight]
      omega
    have further : child.isNode = true → ∃ token,
        Locates offset child (child.covering offset) token :=
      fun isNode => (sound.of_child child single.member).locates isNode single.covers
    rw [Tree.covering, single.among]
    cases child with
    | leaf token =>
      have found : ((node kind own error children).leaves.filter
          fun other => other.span.covers offset) = [token] := by
        rw [leaves, forestLeaves_eq_flatMap, single.tokens]
        exact List.filter_cons_of_pos single.covers
      refine ⟨token, List.mem_cons_self, single.member, found, found,
        List.forall_mem_cons.mpr ⟨fun _ => List.mem_cons_self, fun inner inside also => ?_⟩⟩
      rw [forestNodes_eq_flatMap] at inside
      exact absurd (single.nodes inner inside also) List.not_mem_nil
    | node childKind childSpan childError grandchildren =>
      obtain ⟨token, located⟩ := further rfl
      have member := List.mem_cons_of_mem (node kind own error children)
        (List.mem_flatMap_of_mem single.member located.member)
      rw [← forestNodes_eq_flatMap] at member
      refine ⟨token, member, located.child, located.own, ?_,
        List.forall_mem_cons.mpr ⟨fun _ => member, fun inner inside also => ?_⟩⟩
      · rw [leaves, forestLeaves_eq_flatMap, single.tokens]
        exact located.only
      · rw [forestNodes_eq_flatMap] at inside
        exact located.innermost inner (single.nodes inner inside also) also
termination_by tree => tree.weight
decreasing_by exact lighter

theorem eq_of_child {token : Token} (sound : tree.Sound) (child : leaf token ∈ tree.children)
    (covers : token.span.covers offset = true) (holds : inner.span.covers offset = true)
    (member : inner ∈ tree.nodes) : inner = tree := by
  cases tree with
  | leaf other => exact absurd member List.not_mem_nil
  | node kind own error children =>
    obtain ⟨found, single⟩ := sound.exists_child (sound.covers_of_mem_nodes member holds)
    obtain rfl := single.only _ child covers
    refine (List.mem_cons.mp member).resolve_right fun below => ?_
    rw [forestNodes_eq_flatMap] at below
    exact absurd (single.nodes inner below holds) List.not_mem_nil

theorem pinpoints (sound : tree.Sound) (isNode : tree.isNode = true)
    (covers : tree.span.covers offset = true) : ∃ token, Pinpoints offset tree token := by
  obtain ⟨token, located⟩ := sound.locates isNode covers
  have inside : token ∈ (tree.covering offset).leaves ∧ token.span.covers offset = true :=
    List.mem_filter.mp (located.own ▸ List.mem_singleton_self token)
  have holds {node : Tree} (member : node ∈ tree.nodes) (child : leaf token ∈ node.children) :
      node.span.covers offset = true := by
    refine (sound.of_mem_nodes member).covers_of_mem_leaves ?_ inside.2
    cases node with
    | leaf other => exact absurd child List.not_mem_nil
    | node kind own error children =>
      rw [leaves, forestLeaves_eq_flatMap]
      exact List.mem_flatMap_of_mem child (List.mem_singleton_self token)
  have covered := holds located.member located.child
  refine ⟨token, ?_, ?_, ?_, ?_, covered, ?_⟩
  · rw [tokenAt?, tokens_eq_leaves, ← List.head?_filter, located.own]
    rfl
  · rw [tokensAt, tokens_eq_leaves, located.only]
  · rw [descendants_eq_nodes]
    exact located.member
  · intro node member
    rw [descendants_eq_nodes] at member
    refine ⟨fun child => ?_, fun same => same ▸ located.child⟩
    exact ((sound.of_mem_nodes member).eq_of_child child inside.2 covered
      (located.innermost node member (holds member child))).symm
  · simpa only [descendants_eq_nodes] using located.innermost

theorem beyond (sound : (node kind own error children).Sound) (quiet : own.covers offset = false) :
    (node kind own error children).tokenAt? offset = none ∧
      (node kind own error children).covering offset = node kind own error children := by
  have silent : ∀ child ∈ children, child.span.covers offset ≠ true := by
    intro child member covers
    have within : own.start ≤ child.span.start ∧ child.span.stop ≤ own.stop :=
      ((sound.tiled _ List.mem_cons_self).abut.bounds (List.forall_mem_map.mpr fun tree member =>
        (sound.of_child tree member).start_le_stop)).2 _ (List.mem_map_of_mem member)
    simp only [Span.covers, Bool.and_eq_false_iff, Bool.and_eq_true, decide_eq_true_eq,
      decide_eq_false_iff_not] at covers quiet
    omega
  obtain ⟨uncovered, noTokens, -⟩ := absent sound.of_child silent
  have stays : (node kind own error children).covering offset = node kind own error children := by
    rw [Tree.covering, uncovered]
    rfl
  refine ⟨?_, stays⟩
  rw [tokenAt?, stays, tokens_eq_leaves, leaves, forestLeaves_eq_flatMap, ← List.head?_filter,
    noTokens]
  rfl

end Sound

end Tree

namespace Parse

/--
Looking up an offset of the text gives the one token of the tree that the
offset falls into and the node that the token is a child of, which is the
innermost of the nodes around the offset.  Beyond the text there is no token,
and the node is the root.
-/
theorem lookup_exact (options : ParseOptions) (seed : OperatorTable)
    (isCancelled : Nat → Bool) (source : String) (offset : Nat) :
    (offset < source.utf8ByteSize →
      ∃ token, (run options seed isCancelled source).parse.root.Pinpoints offset token) ∧
    (source.utf8ByteSize ≤ offset →
      (run options seed isCancelled source).parse.root.tokenAt? offset = none ∧
        (run options seed isCancelled source).parse.root.covering offset =
          (run options seed isCancelled source).parse.root) := by
  obtain ⟨children, root, abut, tiled, leaves⟩ :=
    Job.tiled_root ⟨options, seed, isCancelled, source⟩
  have sound : (Tree.node .wholeModule ⟨0, source.utf8ByteSize⟩ none children).Sound := by
    refine ⟨List.forall_mem_cons.mpr ⟨⟨abut, ?_⟩, tiled⟩, ?_⟩
    · exact fun diagnostic member => absurd member (Option.not_mem_none diagnostic)
    · rw [Tree.leaves, leaves]
      exact (Layout.laid_tokens options.tabWidth source).forward
  rw [root]
  refine ⟨fun inside => sound.pinpoints rfl ?_, fun outside => sound.beyond ?_⟩
  · simp [Tree.span, Span.covers, inside]
  · simp [Span.covers, Nat.not_lt.mpr outside]

end Parse

end Offside
