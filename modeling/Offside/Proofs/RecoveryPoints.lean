import Offside.Proofs.FaultReports
import Offside.Proofs.Tiling

/-!
# Where reading goes on

The diagnostics of a tree come in the order of the text, and each says where
reading goes on: at the first token behind its node that the grammar sees.
What productions build keeps this up, because a report is made when all that
stands in front of the pending tokens has been taken.
-/

namespace Offside

/-! ### Spans in order -/

variable {start stop : Nat}

theorem Span.Abut.bounds {spans : List Span} (abut : Abut start spans stop)
    (forward : ∀ span ∈ spans, span.start ≤ span.stop) :
    start ≤ stop ∧ ∀ span ∈ spans, start ≤ span.start ∧ span.stop ≤ stop := by
  induction spans generalizing start with
  | nil => exact ⟨Nat.le_of_eq abut, List.forall_mem_nil _⟩
  | cons span rest ih =>
    obtain ⟨starts, abut⟩ := abut
    obtain ⟨own, others⟩ := List.forall_mem_cons.mp forward
    obtain ⟨ends, within⟩ := ih abut others
    refine ⟨by omega, List.forall_mem_cons.mpr ⟨⟨Nat.le_of_eq starts.symm, ends⟩, ?_⟩⟩
    intro other member
    have := within other member
    omega

theorem Span.positions?_isSome {span : Span} {source : String} (ordered : span.start ≤ span.stop)
    (within : span.stop ≤ source.utf8ByteSize) : (span.positions? source).isSome = true := by
  have fits : ¬ (source.utf8ByteSize < span.stop ∨ span.stop < span.start) := by
    omega
  rw [Span.positions?, if_neg (by simpa using fits)]
  rfl

theorem Token.Laid.forward {offset : Nat} {tokens : List Token} (laid : Laid offset tokens) :
    ∀ token ∈ tokens, token.span.start ≤ token.span.stop := by
  induction tokens generalizing offset with
  | nil => exact List.forall_mem_nil _
  | cons token rest ih =>
    obtain ⟨own, later⟩ := laid
    refine List.forall_mem_cons.mpr ⟨?_, ih later⟩
    rw [own]
    exact Nat.le_add_right _ _

namespace Tree

/-- The spans of nodes lie between two offsets and start one after the other. -/
structure InOrder (start stop : Nat) (row : List Tree) : Prop where
  sorted : row.Pairwise fun one two => one.span.start ≤ two.span.start
  within : ∀ tree ∈ row, start ≤ tree.span.start ∧ tree.span.start ≤ tree.span.stop ∧
    tree.span.stop ≤ stop

theorem InOrder.append {middle : Nat} {left right : List Tree} (first : InOrder start middle left)
    (second : InOrder middle stop right) (begins : start ≤ middle) (ends : middle ≤ stop) :
    InOrder start stop (left ++ right) where
  sorted := by
    refine List.pairwise_append.mpr ⟨first.sorted, second.sorted, ?_⟩
    intro one inLeft two inRight
    have := first.within one inLeft
    have := second.within two inRight
    omega
  within := by
    refine List.forall_mem_append.mpr ⟨fun one inLeft => ?_, fun two inRight => ?_⟩
    · have := first.within one inLeft
      omega
    · have := second.within two inRight
      omega

theorem InOrder.diagnostics {row : List Tree} (inOrder : InOrder start stop row)
    (tiled : ∀ node ∈ row, Tiled node) :
    (row.filterMap error?).Pairwise fun one two => one.span.start ≤ two.span.start := by
  rw [List.pairwise_filterMap]
  refine inOrder.sorted.imp_of_mem ?_
  intro one two inOne inTwo ordered first isFirst second isSecond
  rw [(tiled one inOne).payload first isFirst, (tiled two inTwo).payload second isSecond]
  exact ordered

theorem start_le_stop (tree : Tree) (tiled : ∀ node ∈ tree.nodes, Tiled node)
    (forward : ∀ token ∈ tree.leaves, token.span.start ≤ token.span.stop) :
    tree.span.start ≤ tree.span.stop :=
  ((abut_leaves tree tiled).bounds (List.forall_mem_map.mpr forward)).1

mutual

theorem inOrder_nodes : (tree : Tree) → (∀ node ∈ tree.nodes, Tiled node) →
    (∀ token ∈ tree.leaves, token.span.start ≤ token.span.stop) →
      InOrder tree.span.start tree.span.stop tree.nodes
  | leaf _, _, _ => ⟨.nil, List.forall_mem_nil _⟩
  | node kind span error children, tiled, forward => by
    obtain ⟨own, inner⟩ := List.forall_mem_cons.mp tiled
    have below : InOrder span.start span.stop (forestNodes children) :=
      inOrder_forestNodes children own.abut inner forward
    have ahead : span.start ≤ span.stop := start_le_stop _ tiled forward
    exact ⟨.cons (fun other member => (below.within other member).1) below.sorted,
      List.forall_mem_cons.mpr ⟨⟨Nat.le_refl _, ahead, Nat.le_refl _⟩, below.within⟩⟩

theorem inOrder_forestNodes : {start stop : Nat} → (row : List Tree) →
    Span.Abut start (row.map span) stop → (∀ node ∈ forestNodes row, Tiled node) →
      (∀ token ∈ forestLeaves row, token.span.start ≤ token.span.stop) →
        InOrder start stop (forestNodes row)
  | _, _, [], _, _, _ => ⟨.nil, List.forall_mem_nil _⟩
  | _, _, tree :: rest, abut, tiled, forward => by
    obtain ⟨starts, abut⟩ := abut
    obtain ⟨tiledTree, tiledRest⟩ := List.forall_mem_append.mp tiled
    obtain ⟨forwardTree, forwardRest⟩ := List.forall_mem_append.mp forward
    have ends := (abut_forestLeaves rest abut tiledRest).bounds
      (List.forall_mem_map.mpr forwardRest)
    rw [← starts]
    exact (inOrder_nodes tree tiledTree forwardTree).append
      (inOrder_forestNodes rest abut tiledRest forwardRest)
      (start_le_stop tree tiledTree forwardTree) ends.1

end

/-! ### What follows a node -/

mutual

/-- The nodes of a tree, each in front of those below it, with the tokens behind each of them. -/
def followedIn (after : List Token) : Tree → List (Tree × List Token)
  | leaf _ => []
  | node kind span error children =>
    (node kind span error children, after) :: forestFollowed after children

/-- The nodes of a row of trees with the tokens behind each of them. -/
def forestFollowed (after : List Token) : List Tree → List (Tree × List Token)
  | [] => []
  | tree :: rest => tree.followedIn (forestLeaves rest ++ after) ++ forestFollowed after rest

end

/-- The nodes of a tree with the tokens of the tree behind each of them. -/
def followed (tree : Tree) : List (Tree × List Token) :=
  tree.followedIn []

mutual

theorem map_fst_followedIn (after : List Token) (tree : Tree) :
    (tree.followedIn after).map Prod.fst = tree.nodes := by
  match tree with
  | leaf token => rfl
  | node kind span error children =>
    rw [followedIn, List.map_cons, map_fst_forestFollowed after children, nodes]

theorem map_fst_forestFollowed (after : List Token) (row : List Tree) :
    (forestFollowed after row).map Prod.fst = forestNodes row := by
  match row with
  | [] => rfl
  | tree :: rest =>
    rw [forestFollowed, List.map_append, map_fst_followedIn _ tree,
      map_fst_forestFollowed after rest, forestNodes]

end

theorem forestFollowed_append (after : List Token) (left right : List Tree) :
    forestFollowed after (left ++ right) =
      forestFollowed (forestLeaves right ++ after) left ++ forestFollowed after right := by
  induction left with
  | nil => rfl
  | cons tree rest ih => simp [forestFollowed, ih]

theorem forestFollowed_ofChildren (after : List Token) (kind : NodeKind)
    (error : Option Diagnostic) (openedAt : Nat) (children : List Tree) :
    forestFollowed after [ofChildren kind error openedAt children] =
      (ofChildren kind error openedAt children, after) :: forestFollowed after children := by
  rw [forestFollowed, forestFollowed, List.append_nil]
  rfl

mutual

theorem leaves_of_followedIn (after : List Token) (tree : Tree) :
    ∀ pair ∈ tree.followedIn after, ∃ before between, pair.2 = between ++ after ∧
      tree.leaves = before ++ (pair.1.leaves ++ between) := by
  match tree with
  | leaf token => nofun
  | node kind span error children =>
    refine List.forall_mem_cons.mpr ⟨⟨[], [], rfl, ?_⟩, ?_⟩
    · rw [List.append_nil, List.nil_append]
    · exact leaves_of_forestFollowed after children

theorem leaves_of_forestFollowed (after : List Token) (row : List Tree) :
    ∀ pair ∈ forestFollowed after row, ∃ before between, pair.2 = between ++ after ∧
      forestLeaves row = before ++ (pair.1.leaves ++ between) := by
  match row with
  | [] => nofun
  | tree :: rest =>
    refine List.forall_mem_append.mpr ⟨fun pair inTree => ?_, fun pair inRest => ?_⟩
    · obtain ⟨before, between, behind, split⟩ :=
        leaves_of_followedIn (forestLeaves rest ++ after) tree pair inTree
      refine ⟨before, between ++ forestLeaves rest, ?_, ?_⟩
      · rw [behind, List.append_assoc]
      · rw [forestLeaves, split, List.append_assoc, List.append_assoc]
    · obtain ⟨before, between, behind, split⟩ :=
        leaves_of_forestFollowed after rest pair inRest
      exact ⟨tree.leaves ++ before, between, behind, by
        rw [forestLeaves, split, List.append_assoc]⟩

end

theorem abut_forestFollowed : {start middle stop : Nat} → (after : List Token) →
    (row : List Tree) → Span.Abut start (row.map span) middle →
      (∀ node ∈ forestNodes row, Tiled node) →
        Span.Abut middle (after.map Token.span) stop → ∀ pair ∈ forestFollowed after row,
          Span.Abut pair.1.span.stop (pair.2.map Token.span) stop
  | _, _, _, _, [], _, _, _ => List.forall_mem_nil _
  | _, _, _, after, leaf _ :: rest, abut, tiled, behind =>
    abut_forestFollowed after rest abut.2 tiled behind
  | _, _, stop, after, node _ own _ children :: rest, abut, tiled, behind => by
    obtain ⟨tiledTree, tiledRest⟩ := List.forall_mem_append.mp tiled
    obtain ⟨tiledOwn, tiledBelow⟩ := List.forall_mem_cons.mp tiledTree
    have next : Span.Abut own.stop ((forestLeaves rest ++ after).map Token.span) stop := by
      rw [List.map_append]
      exact Span.Abut.append_iff.mpr ⟨_, abut_forestLeaves rest abut.2 tiledRest, behind⟩
    refine List.forall_mem_append.mpr ⟨List.forall_mem_cons.mpr ⟨next, ?_⟩,
      abut_forestFollowed after rest abut.2 tiledRest behind⟩
    exact abut_forestFollowed _ children tiledOwn.abut tiledBelow next

/-- In tiled trees the tokens behind a node lie between its end and the end of the trees. -/
theorem within_of_followed {row : List Tree} (abut : Span.Abut start (row.map span) stop)
    (tiled : ∀ node ∈ forestNodes row, Tiled node)
    (forward : ∀ token ∈ forestLeaves row, token.span.start ≤ token.span.stop)
    {pair : Tree × List Token} (member : pair ∈ forestFollowed [] row) :
    ∀ token ∈ pair.2, pair.1.span.stop ≤ token.span.start ∧ token.span.start ≤ stop := by
  intro token isBehind
  obtain ⟨before, between, behind, split⟩ := leaves_of_forestFollowed [] row pair member
  have ahead : ∀ token ∈ pair.2, token.span.start ≤ token.span.stop := by
    intro other isOther
    refine forward other ?_
    rw [split, ← List.append_nil between, ← behind]
    exact List.mem_append_right _ (List.mem_append_right _ isOther)
  have bounds := ((abut_forestFollowed [] row abut tiled rfl pair member).bounds
    (List.forall_mem_map.mpr ahead)).2 token.span (List.mem_map_of_mem isBehind)
  exact ⟨bounds.1, Nat.le_trans (ahead token isBehind) bounds.2⟩

end Tree

namespace Grammar

open Offside.Tree (forestLeaves forestFollowed forestFollowed_append forestFollowed_ofChildren)

variable {sourceLength : Nat}

/-- Every diagnostic in the row says where reading goes on behind its node. -/
def Resumes (sourceLength : Nat) (row : List Tree) (pending : List Token) : Prop :=
  ∀ pair ∈ forestFollowed pending row, ∀ diagnostic ∈ pair.1.error?,
    diagnostic.recovery = resumption sourceLength pair.2

theorem resumes_nil (pending : List Token) : Resumes sourceLength [] pending :=
  List.forall_mem_nil _

variable {pending : List Token} {children : List Tree}

theorem resumes_append {left right : List Tree} :
    Resumes sourceLength (left ++ right) pending ↔
      Resumes sourceLength left (forestLeaves right ++ pending) ∧
        Resumes sourceLength right pending := by
  rw [Resumes, forestFollowed_append, List.forall_mem_append]
  rfl

theorem resumes_ofChildren {kind : NodeKind} {error : Option Diagnostic} {openedAt : Nat}
    (own : ∀ diagnostic ∈ error, diagnostic.recovery = resumption sourceLength pending)
    (inner : Resumes sourceLength children pending) :
    Resumes sourceLength [.ofChildren kind error openedAt children] pending := by
  rw [Resumes, forestFollowed_ofChildren]
  refine List.forall_mem_cons.mpr ⟨fun diagnostic isError => ?_, inner⟩
  obtain ⟨given, isGiven, rfl⟩ := Option.map_eq_some_iff.mp isError
  exact own given isGiven

theorem resumes_construct {kind : NodeKind} {openedAt : Nat}
    (inner : Resumes sourceLength children pending) :
    Resumes sourceLength [.ofChildren kind none openedAt children] pending :=
  resumes_ofChildren (fun diagnostic member => absurd member (Option.not_mem_none diagnostic)) inner

theorem Grafts.resumes {allowed : TokenKind → Bool} {left : List Token} {row : List Tree}
    (grafts : Grafts sourceLength allowed pending row left) : Resumes sourceLength row left := by
  induction grafts with
  | done pending => exact resumes_nil pending
  | leaf _ _ _ ih => exact ih
  | @fault token rest left row diagnostic openedAt _ _ resumes later ih =>
    have here : Resumes sourceLength
        [.ofChildren .error (some diagnostic) openedAt [.leaf token]]
        (forestLeaves row ++ left) := by
      refine resumes_ofChildren (fun given isGiven => ?_)
        (List.forall_mem_nil _)
      rw [later.leaves, ← resumes]
      cases isGiven
      rfl
    exact resumes_append.mpr ⟨here, ih⟩

theorem Builds.resumes {depth : Nat} {phase : Phase} {first second : List Tree × List Token}
    (builds : Builds sourceLength depth phase first second)
    (before : Resumes sourceLength first.1 first.2) : Resumes sourceLength second.1 second.2 := by
  induction builds with
  | stay => exact before
  | trans _ _ left right => exact right (left before)
  | graft _ _ _ grafts | join _ _ grafts =>
    refine resumes_append.mpr ⟨?_, grafts.resumes⟩
    rw [grafts.leaves]
    exact before
  | skip _ _ _ _ _ _ _ grafts resumes =>
    refine resumes_append.mpr ⟨?_, resumes_ofChildren ?_ grafts.resumes⟩
    · rw [forestLeaves_ofChildren, forestLeaves, List.append_assoc, grafts.leaves]
      exact before
    · rintro _ ⟨⟩
      exact resumes
  | report _ _ _ _ _ _ resumes =>
    obtain ⟨outside, inside⟩ := resumes_append.mp before
    refine resumes_append.mpr ⟨?_, resumes_ofChildren ?_ inside⟩
    · rw [forestLeaves_ofChildren]
      exact outside
    · rintro _ ⟨⟩
      exact resumes
  | node _ _ _ _ body ih | enclose _ _ _ body ih | chain _ _ body ih =>
    refine resumes_append.mpr ⟨?_, resumes_construct (ih (resumes_nil _))⟩
    rw [forestLeaves_ofChildren, body.leaves]
    exact before
  | abandon _ body ih =>
    refine resumes_append.mpr ⟨?_, ih (resumes_nil _)⟩
    rw [body.leaves]
    exact before
  | wrap _ _ _ body ih =>
    obtain ⟨outside, inside⟩ := resumes_append.mp before
    refine resumes_append.mpr ⟨?_, resumes_construct (ih inside)⟩
    rw [forestLeaves_ofChildren, body.leaves]
    exact outside
  | nest _ _ _ ih | within _ ih => exact ih before
  | block row _ closes _ ih =>
    have inside := ih (resumes_append.mpr ⟨before, List.forall_mem_nil _⟩)
    rcases closes with ⟨stop, rfl, -⟩ | ⟨rfl, -⟩
    · exact resumes_append.mpr ⟨inside, List.forall_mem_nil _⟩
    · rw [List.map_nil, List.append_nil]
      exact inside

theorem bounds_of_resumes {length : Nat} (abut : Span.Abut 0 (children.map Tree.span) length)
    (tiled : ∀ node ∈ Tree.forestNodes children, node.Tiled)
    (forward : ∀ token ∈ forestLeaves children, token.span.start ≤ token.span.stop)
    (resumes : ∀ pair ∈ Tree.forestFollowed [] children, ∀ diagnostic ∈ pair.1.error?, ∃ next,
      (pair.2.find? fun token => token.kind.isVisible) = some next ∧
        diagnostic.recovery = next.span.start) :
    ∀ diagnostic ∈ (Tree.forestNodes children).filterMap Tree.error?,
      diagnostic.span.start ≤ diagnostic.span.stop ∧
        diagnostic.span.stop ≤ diagnostic.recovery ∧ diagnostic.recovery ≤ length := by
  intro diagnostic member
  rw [← Tree.map_fst_forestFollowed [] children] at member
  obtain ⟨node, isNode, reported⟩ := List.mem_filterMap.mp member
  obtain ⟨pair, isPair, rfl⟩ := List.mem_map.mp isNode
  rw [Tree.map_fst_forestFollowed] at isNode
  obtain ⟨next, isNext, recovery⟩ := resumes pair isPair diagnostic reported
  have beyond := Tree.within_of_followed abut tiled forward isPair next
    (List.mem_of_find?_eq_some isNext)
  have within := (Tree.inOrder_forestNodes children abut tiled forward).within pair.1 isNode
  rw [(tiled pair.1 isNode).payload diagnostic reported, recovery]
  exact ⟨by omega, beyond⟩

theorem resumes_root (options : ParseOptions) (seed : OperatorTable) (source : String) :
    ∀ pair ∈ (Parse.withTable options seed source).root.followed,
      ∀ diagnostic ∈ pair.1.error?, ∃ next,
        (pair.2.find? fun token => token.kind.isVisible) = some next ∧
          diagnostic.recovery = next.span.start := by
  obtain ⟨span, row, stop, root, builds⟩ := Parse.builds_root options seed source
  have resumes := builds.resumes (resumes_nil _)
  rw [root, Tree.followed, Tree.followedIn, forestFollowed_append]
  refine List.forall_mem_cons.mpr
    ⟨fun diagnostic member => absurd member (Option.not_mem_none diagnostic), ?_⟩
  refine List.forall_mem_append.mpr ⟨fun pair member diagnostic isError => ?_,
    List.forall_mem_nil _⟩
  have recovery := resumes pair member diagnostic isError
  -- The end of the text comes last, so the search behind the node finds something.
  obtain ⟨-, between, behind, -⟩ := Tree.leaves_of_forestFollowed _ row pair member
  have found : (pair.2.find? fun token => token.kind.isVisible).isSome = true := by
    rw [List.find?_isSome]
    refine ⟨Token.virtual .eof stop, ?_, rfl⟩
    rw [behind]
    exact List.mem_append_right _ List.mem_cons_self
  obtain ⟨next, isNext⟩ := Option.isSome_iff_exists.mp found
  rw [resumption, isNext] at recovery
  exact ⟨next, isNext, recovery⟩

end Grammar

namespace Parse

/--
The diagnostics come in the order of the text.  Every error node says where
reading goes on: where the first of the tokens behind it starts that the
grammar sees.  That is not in front of the end of the node and not behind the
end of the text, so the node has a place in the text.
-/
theorem errors_resume_in_order (options : ParseOptions) (seed : OperatorTable) (source : String) :
    ((withTable options seed source).errors.Pairwise fun one two =>
        one.span.start ≤ two.span.start) ∧
      (withTable options seed source).root.followed.map Prod.fst =
        (withTable options seed source).root.descendants ∧
      (∀ node after, (node, after) ∈ (withTable options seed source).root.followed →
        node.kind? = some .error → ∃ diagnostic before next,
          node.error? = some diagnostic ∧
          (withTable options seed source).root.tokens = before ++ (node.tokens ++ after) ∧
          (after.find? fun token => token.kind.isVisible) = some next ∧
          diagnostic.recovery = next.span.start) ∧
      ∀ diagnostic ∈ (withTable options seed source).errors,
        diagnostic.span.stop ≤ diagnostic.recovery ∧
          diagnostic.recovery ≤ source.utf8ByteSize ∧
          (diagnostic.span.positions? source).isSome = true := by
  have resumes := Grammar.resumes_root options seed source
  have reporting := Grammar.reporting_root options seed source
  have nodes := Tree.map_fst_followedIn [] (withTable options seed source).root
  rw [← Tree.descendants_eq_nodes] at nodes
  obtain ⟨children, root, abut, tiled, leaves⟩ :=
    Job.tiled_root ⟨options, seed, fun _ => false, source⟩
  rw [← withTable] at root
  have forward : ∀ token ∈ Tree.forestLeaves children, token.span.start ≤ token.span.stop := by
    rw [leaves]
    exact (Layout.laid_tokens options.tabWidth source).forward
  rw [errors, Tree.diagnostics]
  generalize (withTable options seed source).root = tree at *
  have below : tree.descendants.filterMap Tree.error? =
      (Tree.forestNodes children).filterMap Tree.error? := by
    rw [root, Tree.descendants_eq_nodes, Tree.nodes, List.filterMap_cons_none rfl]
  refine ⟨?_, nodes, ?_, ?_⟩
  · rw [below]
    exact (Tree.inOrder_forestNodes children abut tiled forward).diagnostics tiled
  · intro node after member isError
    have isNode : node ∈ tree.descendants := by
      rw [← nodes]
      exact List.mem_map_of_mem member
    obtain ⟨diagnostic, reported⟩ :=
      Option.isSome_iff_exists.mp ((reporting node isNode).payload isError)
    obtain ⟨next, isNext, recovery⟩ := resumes (node, after) member diagnostic reported
    obtain ⟨before, between, behind, split⟩ :=
      Tree.leaves_of_followedIn [] tree (node, after) member
    rw [List.append_nil] at behind
    refine ⟨diagnostic, before, next, reported, ?_, isNext, recovery⟩
    rw [Tree.tokens_eq_leaves, Tree.tokens_eq_leaves, split, ← behind]
  · intro diagnostic member
    rw [root, Tree.followed, Tree.followedIn] at resumes
    obtain ⟨ordered, behind, within⟩ := Grammar.bounds_of_resumes abut tiled forward
      (fun pair member => resumes pair (List.mem_cons_of_mem _ member)) diagnostic (below ▸ member)
    exact ⟨behind, within, Span.positions?_isSome ordered (behind.trans within)⟩

end Parse

end Offside
