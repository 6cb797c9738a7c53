import Offside.Proofs.BlockMarks
import Offside.Proofs.Walks

/-!
# Where the leaves of a tree stand

The place of a leaf is told by the nodes above it.  What stands under an error
node has been skipped.  A separator belongs to the top of a tree if it stands
right below the root, or right below a chain of instances next to its `else`.
This module relates that to the blocks that are open in front of it.
-/

namespace Offside

def openBlocks (marks : List TokenKind) : Int :=
  marks.count .layoutStart - marks.count .layoutEnd

@[simp]
theorem openBlocks_nil : openBlocks [] = 0 := by
  rfl

@[simp]
theorem openBlocks_append (left right : List TokenKind) :
    openBlocks (left ++ right) = openBlocks left + openBlocks right := by
  simp only [openBlocks, List.count_append]
  omega

theorem openBlocks_cons (mark : TokenKind) (rest : List TokenKind) :
    openBlocks (mark :: rest) = openBlocks [mark] + openBlocks rest :=
  openBlocks_append [mark] rest

theorem openBlocks_filter_isBlockMark (marks : List TokenKind) :
    openBlocks (marks.filter TokenKind.isBlockMark) = openBlocks marks := by
  rw [openBlocks, List.count_filter rfl, List.count_filter rfl, openBlocks]

theorem openBlocks_of_depthAfter {depth reached : Nat} {marks : List TokenKind}
    (placed : depthAfter depth marks = some reached) : openBlocks marks = reached - depth := by
  induction marks generalizing depth with
  | nil =>
    rw [depthAfter_nil, Option.some.injEq] at placed
    rw [openBlocks_nil]
    omega
  | cons mark rest ih =>
    rw [depthAfter_cons, Option.bind_eq_some_iff] at placed
    obtain ⟨next, marked, placed⟩ := placed
    have single : openBlocks [mark] = next - depth := by
      unfold depthAfterMark at marked
      split at marked <;> simp_all [openBlocks] <;> omega
    rw [openBlocks_cons, ih placed]
    omega

theorem openBlocks_pos_of_separator {marks rest : List TokenKind} {reached : Nat}
    (placed : depthAfter 0 (marks ++ .layoutSep :: rest) = some reached) :
    0 < openBlocks marks := by
  rw [depthAfter_append, Option.bind_eq_some_iff] at placed
  obtain ⟨depth, before, placed⟩ := placed
  rw [depthAfter_cons, Option.bind_eq_some_iff] at placed
  obtain ⟨next, marked, -⟩ := placed
  rw [openBlocks_of_depthAfter before]
  by_cases outside : depth = 0
  · rw [outside] at marked
    cases marked
  · omega

/-! ### Places -/

/-- A leaf of a tree and the kinds of the nodes above it, innermost first. -/
structure Placed where
  token : Token
  above : List NodeKind

namespace Placed

def isSkipped (placed : Placed) : Bool :=
  placed.above.contains .error

def isDirect (placed : Placed) : Bool :=
  placed.above = [.wholeModule]

/-- How many more blocks the leaves open than they close. -/
def opens (row : List Placed) : Int :=
  openBlocks (row.map fun placed => placed.token.kind)

@[simp]
theorem opens_append (left right : List Placed) :
    opens (left ++ right) = opens left + opens right := by
  simp [opens]

/-- The marks among the leaves that have not been skipped. -/
def readMarks (row : List Placed) : List TokenKind :=
  ((row.filter fun placed => !placed.isSkipped).map fun placed =>
    placed.token.kind).filter TokenKind.isBlockMark

@[simp]
theorem readMarks_append (left right : List Placed) :
    readMarks (left ++ right) = readMarks left ++ readMarks right := by
  simp [readMarks]

theorem opens_eq_skipped_add_read (row : List Placed) :
    opens row = opens (row.filter isSkipped) + openBlocks (readMarks row) := by
  rw [readMarks, openBlocks_filter_isBlockMark]
  induction row with
  | nil => rfl
  | cons placed rest ih =>
    rw [opens, List.map_cons, openBlocks_cons]
    change openBlocks _ + opens rest = _
    rw [ih]
    cases skipped : placed.isSkipped with
    | true =>
      simp only [List.filter_cons, skipped, opens, Bool.not_true, Bool.false_eq_true,
        if_true, if_false, List.map_cons]
      rw [openBlocks_cons _ (List.map _ _)]
      omega
    | false =>
      simp only [List.filter_cons, skipped, Bool.not_false, Bool.false_eq_true,
        if_true, if_false, List.map_cons]
      rw [openBlocks_cons _ (List.map _ _)]
      omega

end Placed

namespace Tree

mutual

/-- The leaves of a tree from left to right with the nodes above them. -/
def placesIn (above : List NodeKind) : Tree → List Placed
  | leaf token => [⟨token, above⟩]
  | node kind _ _ children => forestPlaces (kind :: above) children

/-- The leaves of a row of trees with the nodes above them. -/
def forestPlaces (above : List NodeKind) : List Tree → List Placed
  | [] => []
  | tree :: rest => tree.placesIn above ++ forestPlaces above rest

end

/-- The leaves of a tree from left to right with the nodes above them. -/
def places (tree : Tree) : List Placed :=
  tree.placesIn []

mutual

theorem map_token_placesIn (above : List NodeKind) (tree : Tree) :
    (tree.placesIn above).map Placed.token = tree.leaves := by
  match tree with
  | leaf token => rfl
  | node kind span error children =>
    exact map_token_forestPlaces (kind :: above) children

theorem map_token_forestPlaces (above : List NodeKind) (row : List Tree) :
    (forestPlaces above row).map Placed.token = forestLeaves row := by
  match row with
  | [] => rfl
  | tree :: rest =>
    rw [forestPlaces, List.map_append, map_token_placesIn above tree,
      map_token_forestPlaces above rest, forestLeaves]

end

theorem above_forestPlaces : (above : List NodeKind) → (row : List Tree) →
    ∀ placed ∈ forestPlaces above row, ∃ inner, placed.above = inner ++ above
  | _, [] => List.forall_mem_nil _
  | above, leaf _ :: rest => List.forall_mem_cons.mpr ⟨⟨[], rfl⟩, above_forestPlaces above rest⟩
  | above, node kind _ _ children :: rest => by
    refine List.forall_mem_append.mpr ⟨fun placed member => ?_, above_forestPlaces above rest⟩
    obtain ⟨inner, isAbove⟩ := above_forestPlaces (kind :: above) children placed member
    exact ⟨inner ++ [kind], by rw [isAbove, List.append_assoc]; rfl⟩

mutual

theorem readMarks_placesIn {above : List NodeKind} (read : above.contains .error = false)
    (tree : Tree) : Placed.readMarks (tree.placesIn above) = tree.blockMarks := by
  match tree with
  | leaf token =>
    have notSkipped : Placed.isSkipped ⟨token, above⟩ = false := read
    cases isMark : token.kind.isBlockMark <;>
      simp [placesIn, Placed.readMarks, blockMarks, notSkipped, isMark]
  | node kind span error children =>
    rw [placesIn, blockMarks]
    split
    · next isError =>
        have allSkipped : (forestPlaces (kind :: above) children).filter
            (fun placed => !placed.isSkipped) = [] := by
          rw [List.filter_eq_nil_iff]
          intro placed member
          obtain ⟨inner, isAbove⟩ :=
            above_forestPlaces (kind :: above) children placed member
          simp [Placed.isSkipped, isAbove, isError]
        rw [Placed.readMarks, allSkipped]
        rfl
    · next other =>
        refine readMarks_forestPlaces ?_ children
        simpa [Ne.symm other] using read

theorem readMarks_forestPlaces {above : List NodeKind}
    (read : above.contains .error = false) (row : List Tree) :
    Placed.readMarks (forestPlaces above row) = forestMarks row := by
  match row with
  | [] => rfl
  | tree :: rest =>
    rw [forestPlaces, Placed.readMarks_append, readMarks_placesIn read tree,
      readMarks_forestPlaces read rest, forestMarks]

end

theorem forestPlaces_split {above : List NodeKind} {row : List Tree}
    {before after : List Placed} {placed : Placed}
    (split : forestPlaces above row = before ++ placed :: after) :
    ∃ front child back inner rest, row = front ++ child :: back ∧
      child.placesIn above = inner ++ placed :: rest ∧
      before = forestPlaces above front ++ inner ∧
      after = rest ++ forestPlaces above back := by
  induction row generalizing before with
  | nil => simp [forestPlaces] at split
  | cons tree others ih =>
    rcases append_eq_append_cons split with ⟨rest, isTree, rfl⟩ | ⟨skipped, rfl, later⟩
    · exact ⟨[], tree, others, before, rest, rfl, isTree, rfl, rfl⟩
    · obtain ⟨front, child, back, inner, rest, rfl, isChild, rfl, rfl⟩ := ih later
      refine ⟨tree :: front, child, back, inner, rest, rfl, isChild, ?_, rfl⟩
      rw [forestPlaces, List.append_assoc]

end Tree

/-! ### Separators at the top -/

def firstVisible (tokens : List Token) : Option TokenKind :=
  (tokens.find? fun token => token.kind.isVisible).map Token.kind

/-- Between these tokens, an `else` comes next or was the last that the grammar saw. -/
def IsNextToElse (before after : List Token) : Prop :=
  firstVisible after = some (.keyword .elseWord) ∨
    firstVisible before.reverse = some (.keyword .elseWord)

theorem firstVisible_append {tokens : List Token} {kind : TokenKind}
    (found : firstVisible tokens = some kind) (more : List Token) :
    firstVisible (tokens ++ more) = some kind := by
  rw [firstVisible, Option.map_eq_some_iff] at found ⊢
  obtain ⟨token, isFirst, isKind⟩ := found
  exact ⟨token, by rw [List.find?_append, isFirst]; rfl, isKind⟩

theorem IsNextToElse.widen {before after : List Token} (next : IsNextToElse before after)
    (earlier later : List Token) : IsNextToElse (earlier ++ before) (after ++ later) := by
  refine next.imp (fun found => firstVisible_append found later) fun found => ?_
  rw [List.reverse_append]
  exact firstVisible_append found earlier.reverse

/--
A leaf between two rows of leaves belongs to the top of a tree: it stands right
below the root, or right below a chain of instances next to its `else`.
-/
def Placed.IsTop (before : List Placed) (placed : Placed) (after : List Placed) : Prop :=
  placed.above = [.wholeModule] ∨
    placed.above = [.instanceChain, .wholeModule] ∧
      IsNextToElse (before.map Placed.token) (after.map Placed.token)

namespace Tree

/--
Every separator that was read under the tree is placed as a child of the root
demands: it belongs to the top if and only if no block is open in the tree.
-/
def Seated (tree : Tree) : Prop :=
  ∀ before placed after,
    tree.placesIn [.wholeModule] = before ++ placed :: after →
    placed.token.kind = .layoutSep → placed.isSkipped = false →
      ((placed.above = [.wholeModule] ∨ placed.above = [.instanceChain, .wholeModule]) ↔
        openBlocks (Placed.readMarks before) = 0) ∧
      (placed.above = [.instanceChain, .wholeModule] →
        IsNextToElse (before.map Placed.token) (after.map Placed.token))

/-- A block that is left open in a node has no marks of blocks behind it. -/
def Balanced (row : List Tree) : Prop :=
  ∀ front child back, row = front ++ child :: back → child.isNode = true →
    openBlocks child.blockMarks = 0 ∨ forestMarks back = []

theorem seated_leaf (token : Token) : Seated (leaf token) := by
  intro before placed after split _ _
  obtain ⟨rfl, rfl, -⟩ := singleton_eq_append_cons split
  exact ⟨⟨fun _ => rfl, fun _ => .inl rfl⟩, by simp⟩

variable {tree : Tree} {placed : Placed} {row : List Tree}

theorem blockMarks_split {above : List NodeKind} (read : above.contains .error = false)
    {before after : List Placed} (split : tree.placesIn above = before ++ placed :: after)
    (isSep : placed.token.kind = .layoutSep) (notSkipped : placed.isSkipped = false) :
    tree.blockMarks = Placed.readMarks before ++ .layoutSep :: Placed.readMarks after := by
  have own : Placed.readMarks [placed] = [.layoutSep] := by
    simp only [Placed.readMarks, List.filter_cons, notSkipped, Bool.not_false, if_true,
      List.map_cons, isSep]
    rfl
  rw [← readMarks_placesIn read tree, split, ← List.singleton_append,
    Placed.readMarks_append, Placed.readMarks_append, own, List.singleton_append]

theorem not_isDirect_of_isNode {kind : NodeKind} {above : List NodeKind}
    (isAbove : ∃ inner, placed.above = inner ++ kind :: above) : placed.above ≠ above := by
  obtain ⟨inner, isAbove⟩ := isAbove
  intro same
  have length := congrArg List.length (isAbove.symm.trans same)
  simp at length
  omega

theorem seated_of_depthAfter {kind : NodeKind} {span : Span} {error : Option Diagnostic}
    {children : List Tree} {depth : Nat} (other : kind ≠ .instanceChain)
    (whole : depthAfter 0 (node kind span error children).blockMarks = some depth) :
    Seated (node kind span error children) := by
  intro before placed after split isSep notSkipped
  have inside : placed ∈ forestPlaces [kind, .wholeModule] children := by
    rw [placesIn] at split
    rw [split]
    exact List.mem_append_right _ (List.mem_cons_self ..)
  obtain ⟨inner, isAbove⟩ := above_forestPlaces _ _ placed inside
  have notChain : placed.above ≠ [.instanceChain, .wholeModule] := by
    intro same
    rw [isAbove] at same
    have length := congrArg List.length same
    have nothing : inner = [] := by simpa using length
    rw [nothing] at same
    exact other (List.cons.inj same).1
  have notDirect : placed.above ≠ [.wholeModule] :=
    not_isDirect_of_isNode ⟨inner, isAbove⟩
  rw [blockMarks_split rfl split isSep notSkipped] at whole
  have positive := openBlocks_pos_of_separator whole
  refine ⟨⟨fun isTop => ?_, fun noneOpen => ?_⟩, fun same => absurd same notChain⟩
  · exact absurd isTop (not_or.mpr ⟨notDirect, notChain⟩)
  · omega

theorem seated_of_no_marks (noMarks : tree.blockMarks = []) : Seated tree := by
  intro before placed after split isSep notSkipped
  rw [blockMarks_split rfl split isSep notSkipped] at noMarks
  simp at noMarks

theorem balanced_nil : Balanced [] := by
  intro front child back split
  simp at split

theorem Balanced.snoc (balanced : Balanced row) (closed : tree.blockMarks = [] ∨
      ∀ node ∈ row, node.isNode = true → openBlocks node.blockMarks = 0) :
    Balanced (row ++ [tree]) := by
  intro front child back split isNode
  rcases concat_eq_append_cons split with ⟨others, isRow, rfl⟩ | ⟨-, -, rfl⟩
  · rcases closed with noMarks | closed
    · refine (balanced front child others isRow isNode).imp_right fun noMarksBehind => ?_
      rw [forestMarks_append, noMarksBehind]
      simp [forestMarks, noMarks]
    · exact .inl (closed child (by rw [isRow]; simp) isNode)
  · exact .inr rfl

theorem Balanced.closed {front back : List Tree} {child : Tree}
    (balanced : Balanced (front ++ child :: back)) (marked : child.blockMarks ≠ []) :
    ∀ node ∈ front, node.isNode = true → openBlocks node.blockMarks = 0 := by
  intro node member isNode
  obtain ⟨earlier, later, rfl⟩ := List.append_of_mem member
  refine (balanced earlier node (later ++ child :: back) ?_ isNode).resolve_right ?_
  · rw [List.append_assoc, List.cons_append]
  · rw [forestMarks_append, forestMarks]
    simp [marked]

theorem openBlocks_closed (above : List NodeKind)
    (closed : ∀ node ∈ row, node.isNode = true → openBlocks node.blockMarks = 0) :
    openBlocks (forestMarks row) =
      Placed.opens ((forestPlaces above row).filter fun placed => placed.above = above) := by
  induction row with
  | nil => rfl
  | cons tree rest ih =>
    rw [forestMarks, openBlocks_append, forestPlaces, List.filter_append,
      Placed.opens_append,
      ih fun node member => closed node (List.mem_cons_of_mem _ member)]
    cases tree with
    | leaf token =>
      simp only [blockMarks, placesIn, List.filter_cons, decide_true, if_true,
        List.filter_nil, Placed.opens, List.map_cons, List.map_nil]
      split
      · rfl
      · next noMark =>
          rw [← openBlocks_filter_isBlockMark [token.kind]]
          simp [noMark]
    | node kind span error children =>
      have nothing : ((node kind span error children).placesIn above).filter
          (fun placed => placed.above = above) = [] := by
        rw [List.filter_eq_nil_iff]
        intro placed member
        rw [decide_eq_true_eq]
        exact not_isDirect_of_isNode (above_forestPlaces _ _ placed member)
      rw [closed _ (List.mem_cons_self ..) rfl, nothing]
      rfl

/-- What may stand right below a chain: separators but no other marks, and whole blocks. -/
def IsLink : Tree → Prop
  | leaf token => token.kind.isBlockMark = true → token.kind = .layoutSep
  | node kind span error children =>
    ∃ depth, depthAfter 0 (node kind span error children).blockMarks = some depth

/-- Every separator right in the row is next to an `else`, if these tokens follow the row. -/
def Beside (row : List Tree) (following : List Token) : Prop :=
  ∀ front token back, row = front ++ leaf token :: back → token.kind = .layoutSep →
    IsNextToElse (forestLeaves front) (forestLeaves back ++ following)

theorem beside_nil (following : List Token) : Beside [] following := by
  intro front token back split
  simp at split

theorem Beside.widen (beside : Beside row []) (following : List Token) : Beside row following := by
  intro front token back split isSep
  have next := (beside front token back split isSep).widen [] following
  rw [List.append_nil] at next
  exact next

theorem Beside.snoc {following : List Token} (beside : Beside row (tree.leaves ++ following))
    (fresh : ∀ token, tree = leaf token → token.kind = .layoutSep →
      IsNextToElse (forestLeaves row) following) : Beside (row ++ [tree]) following := by
  intro front token back split isSep
  rcases concat_eq_append_cons split with ⟨others, isRow, rfl⟩ | ⟨rfl, isLast, rfl⟩
  · simpa [forestLeaves] using beside front token others isRow isSep
  · exact fresh token isLast.symm isSep

theorem Beside.append {more : List Tree} {following : List Token}
    (beside : Beside row (forestLeaves more ++ following))
    (others : ∀ tree ∈ more, ∀ token, tree = leaf token → token.kind ≠ .layoutSep) :
    Beside (row ++ more) following := by
  induction more generalizing row with
  | nil =>
    rw [List.append_nil]
    exact beside
  | cons tree rest ih =>
    rw [← List.singleton_append, ← List.append_assoc]
    refine ih ?_ fun other member => others other (List.mem_cons_of_mem _ member)
    refine Beside.snoc ?_ fun token isLeaf isSep =>
      absurd isSep (others tree (List.mem_cons_self ..) token isLeaf)
    rw [forestLeaves, List.append_assoc] at beside
    exact beside

/-- The children of a chain, each separator next to an `else`. -/
structure IsChainRow (row : List Tree) : Prop where
  links : ∀ child ∈ row, IsLink child
  balanced : Balanced row
  beside : Beside row []

theorem openBlocks_links (links : ∀ child ∈ row, IsLink child)
    (closed : ∀ node ∈ row, node.isNode = true → openBlocks node.blockMarks = 0) :
    openBlocks (forestMarks row) = 0 := by
  induction row with
  | nil => rfl
  | cons tree rest ih =>
    rw [forestMarks, openBlocks_append,
      ih (fun child member => links child (List.mem_cons_of_mem _ member))
        fun node member => closed node (List.mem_cons_of_mem _ member), Int.add_zero]
    have link := links tree (List.mem_cons_self ..)
    cases tree with
    | leaf token =>
      rw [blockMarks]
      split
      · next isMark =>
          rw [link isMark]
          rfl
      · rfl
    | node kind span error children => exact closed _ (List.mem_cons_self ..) rfl

theorem IsChainRow.seated {children : List Tree} (row : IsChainRow children) (span : Span)
    (error : Option Diagnostic) : Seated (node .instanceChain span error children) := by
  intro before placed after split isSep notSkipped
  obtain ⟨front, child, back, inner, rest, rfl, isChild, rfl, rfl⟩ :=
    forestPlaces_split split
  have childMarks := blockMarks_split rfl isChild isSep notSkipped
  have marked : child.blockMarks ≠ [] := by
    rw [childMarks]
    simp
  have closed := openBlocks_links
    (fun child member => row.links child (List.mem_append_left _ member))
    (row.balanced.closed marked)
  rw [Placed.readMarks_append, readMarks_forestPlaces rfl, openBlocks_append, closed]
  cases child with
  | leaf token =>
    obtain ⟨rfl, rfl, rfl⟩ := singleton_eq_append_cons isChild
    refine ⟨⟨fun _ => rfl, fun _ => .inr rfl⟩, fun _ => ?_⟩
    rw [List.append_nil, List.nil_append, map_token_forestPlaces, map_token_forestPlaces]
    have next := row.beside front token back rfl isSep
    rw [List.append_nil] at next
    exact next
  | node kind span error children =>
    have link := row.links _ (List.mem_append_right _ (List.mem_cons_self ..))
    obtain ⟨depth, whole⟩ := link
    rw [childMarks] at whole
    have positive := openBlocks_pos_of_separator whole
    have inside : placed ∈ forestPlaces [kind, .instanceChain, .wholeModule] children := by
      rw [placesIn] at isChild
      rw [isChild]
      exact List.mem_append_right _ (List.mem_cons_self ..)
    obtain ⟨above, isAbove⟩ := above_forestPlaces _ _ placed inside
    have notTop : ¬ (placed.above = [.wholeModule] ∨
        placed.above = [.instanceChain, .wholeModule]) := by
      rw [isAbove]
      rintro (same | same)
      all_goals
        have length := congrArg List.length same
        simp at length
    refine ⟨⟨fun isTop => absurd isTop notTop, fun noneOpen => ?_⟩, fun chained => ?_⟩
    · omega
    · exact absurd (.inr chained) notTop

theorem filter_isDirect_inner {inner rest : List Placed}
    (split : tree.placesIn [.wholeModule] = inner ++ placed :: rest) :
    inner.filter Placed.isDirect = [] := by
  cases tree with
  | leaf token =>
    obtain ⟨rfl, -⟩ := singleton_eq_append_cons split
    rfl
  | node kind span error children =>
    rw [List.filter_eq_nil_iff]
    intro other member
    rw [Placed.isDirect, decide_eq_true_eq]
    refine not_isDirect_of_isNode (above_forestPlaces [kind, .wholeModule] children other ?_)
    rw [placesIn] at split
    rw [split]
    exact List.mem_append_left _ member

theorem isTop_iff (seated : ∀ child ∈ row, Seated child) (balanced : Balanced row)
    {before after : List Placed}
    (split : forestPlaces [.wholeModule] row = before ++ placed :: after)
    (isSep : placed.token.kind = .layoutSep) :
    Placed.IsTop before placed after ↔ placed.isSkipped = false ∧
      Placed.opens before = Placed.opens (before.filter Placed.isSkipped) +
        Placed.opens (before.filter Placed.isDirect) := by
  obtain ⟨front, child, back, inner, rest, rfl, isChild, rfl, rfl⟩ :=
    forestPlaces_split split
  cases skipped : placed.isSkipped with
  | true =>
    have notTop : ¬ Placed.IsTop (forestPlaces [.wholeModule] front ++ inner) placed
        (rest ++ forestPlaces [.wholeModule] back) := by
      rintro (direct | ⟨chained, -⟩)
      · rw [Placed.isSkipped, direct] at skipped
        cases skipped
      · rw [Placed.isSkipped, chained] at skipped
        cases skipped
    simp [notTop]
  | false =>
    obtain ⟨topIff, nextToElse⟩ :=
      seated child (by simp) inner placed rest isChild isSep skipped
    have marked : child.blockMarks ≠ [] := by
      rw [blockMarks_split rfl isChild isSep skipped]
      simp
    have direct : Placed.opens ((forestPlaces [.wholeModule] front ++ inner).filter
        Placed.isDirect) = openBlocks (forestMarks front) := by
      rw [openBlocks_closed [.wholeModule] (balanced.closed marked), List.filter_append,
        filter_isDirect_inner isChild, List.append_nil]
      rfl
    have isTop : Placed.IsTop (forestPlaces [.wholeModule] front ++ inner) placed
        (rest ++ forestPlaces [.wholeModule] back) ↔
        (placed.above = [.wholeModule] ∨
          placed.above = [.instanceChain, .wholeModule]) := by
      refine or_congr_right (and_iff_left_of_imp fun chained => ?_)
      rw [List.map_append, List.map_append]
      exact (nextToElse chained).widen _ _
    rw [isTop, topIff, Placed.opens_eq_skipped_add_read, Placed.readMarks_append,
      readMarks_forestPlaces rfl, openBlocks_append]
    constructor
    · intro closed
      exact ⟨rfl, by omega⟩
    · omega

end Tree

end Offside
