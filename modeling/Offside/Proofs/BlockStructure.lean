import Offside.Proofs.BlockRows
import Offside.Proofs.GrammarSoundness

/-!
# Blocks are nodes

In the tree of a text in which nothing is malformed, the marks of a block are
children of one node, its separators are children of that node too, and they
alternate with its items.  A block that the layout opens is remembered by the
leaf that opens it, so that the node of the innermost open block is known at
every leaf.
-/

namespace Offside

/-- A leaf of a tree and the node right above it. -/
structure Seat where
  token : Token
  /-- The kind of the node. -/
  parent : NodeKind
  /-- The numbers of the children on the way from the root to the node, last first. -/
  address : List Nat

namespace Tree

mutual

/-- The leaves of a tree that is the child of a node with a number. -/
def seatsAt (parent : NodeKind) (address : List Nat) (index : Nat) : Tree → List Seat
  | leaf token => [⟨token, parent, address⟩]
  | node kind _ _ children => forestSeats kind (index :: address) 0 children

/-- The leaves of a row of trees that are children of a node, numbered from an index. -/
def forestSeats (parent : NodeKind) (address : List Nat) (index : Nat) : List Tree → List Seat
  | [] => []
  | tree :: rest => tree.seatsAt parent address index ++ forestSeats parent address (index + 1) rest

end

/-- The leaves below the root of a tree, from left to right. -/
def seats : Tree → List Seat
  | leaf _ => []
  | node kind _ _ children => forestSeats kind [] 0 children

mutual

theorem map_token_seatsAt (parent : NodeKind) (address : List Nat) (index : Nat) :
    (tree : Tree) → (tree.seatsAt parent address index).map Seat.token = tree.leaves
  | leaf _ => rfl
  | node kind _ _ children => map_token_forestSeats kind (index :: address) 0 children

theorem map_token_forestSeats (parent : NodeKind) (address : List Nat) (index : Nat) :
    (row : List Tree) →
      (forestSeats parent address index row).map Seat.token = forestLeaves row
  | [] => rfl
  | tree :: rest => by
    rw [forestSeats, List.map_append, map_token_seatsAt parent address index tree,
      map_token_forestSeats parent address (index + 1) rest, forestLeaves]

end

theorem forestSeats_append (parent : NodeKind) (address : List Nat) (index : Nat)
    (left right : List Tree) :
    forestSeats parent address index (left ++ right) =
      forestSeats parent address index left ++
        forestSeats parent address (index + left.length) right := by
  induction left generalizing index with
  | nil => rfl
  | cons tree rest ih =>
    rw [List.cons_append, forestSeats, forestSeats, ih, List.append_assoc, List.length_cons,
      Nat.add_assoc, Nat.add_comm 1]

theorem forestSeats_split {parent : NodeKind} {address : List Nat} {index : Nat}
    {row : List Tree} {before after : List Seat} {seat : Seat}
    (split : forestSeats parent address index row = before ++ seat :: after) :
    ∃ front child back inner rest, row = front ++ child :: back ∧
      child.seatsAt parent address (index + front.length) = inner ++ seat :: rest ∧
      before = forestSeats parent address index front ++ inner ∧
      after = rest ++ forestSeats parent address (index + front.length + 1) back := by
  induction row generalizing index before with
  | nil => simp [forestSeats] at split
  | cons tree others ih =>
    rcases append_eq_append_cons split with ⟨rest, isTree, rfl⟩ | ⟨skipped, rfl, later⟩
    · exact ⟨[], tree, others, before, rest, rfl, isTree, rfl, rfl⟩
    · obtain ⟨front, child, back, inner, rest, rfl, isChild, rfl, rfl⟩ := ih later
      have number : index + (front.length + 1) = index + 1 + front.length := by omega
      refine ⟨tree :: front, child, back, inner, rest, rfl, ?_, ?_, ?_⟩
      · rw [List.length_cons, number, isChild]
      · rw [forestSeats, List.append_assoc]
      · rw [List.length_cons, number]

end Tree

/-! ### Open blocks -/

namespace Seat

/-- The leaves that opened the blocks around what follows a leaf, innermost first. -/
def openAfter (stack : List Seat) (seat : Seat) : List Seat :=
  match seat.token.kind with
  | .layoutStart => seat :: stack
  | .layoutEnd => stack.tail
  | _ => stack

/-- The leaves that opened the blocks around what follows a row of leaves. -/
def opened (stack seats : List Seat) : List Seat :=
  seats.foldl openAfter stack

/-- The node of the innermost block, or the root if no block is open. -/
def innermost (stack : List Seat) : List Nat :=
  (stack.head?.map Seat.address).getD []

/--
What closes a block is a child of the node of the block, and so is what
separates its items, unless it stands next to the `else` of a chain of instances.
-/
structure Suits (stack before : List Seat) (seat : Seat) (after : List Seat) : Prop where
  closes : seat.token.kind = .layoutEnd →
    ∃ start ∈ (opened stack before).head?, start.address = seat.address
  separates : seat.token.kind = .layoutSep →
    innermost (opened stack before) = seat.address ∨
      seat.parent = .instanceChain ∧
        IsNextToElse (before.map Seat.token) (after.map Seat.token)

/-- Every leaf of the row suits the blocks that are open at it. -/
def Settled (stack seats : List Seat) : Prop :=
  ∀ before seat after, seats = before ++ seat :: after → Suits stack before seat after

theorem opened_append (stack left right : List Seat) :
    opened stack (left ++ right) = opened (opened stack left) right :=
  List.foldl_append

variable {seat : Seat} {stack : List Seat}

theorem openAfter_of_flat (stack : List Seat) (notStart : seat.token.kind ≠ .layoutStart)
    (notEnd : seat.token.kind ≠ .layoutEnd) : openAfter stack seat = stack := by
  unfold openAfter
  split <;> first | contradiction | rfl

theorem Suits.widen {earlier before after : List Seat}
    (suits : Suits (opened stack earlier) before seat after) (later : List Seat) :
    Suits stack (earlier ++ before) seat (after ++ later) := by
  refine ⟨fun isEnd => ?_, fun isSeparator => ?_⟩
  · rw [opened_append]
    exact suits.closes isEnd
  · rw [opened_append, List.map_append, List.map_append]
    exact (suits.separates isSeparator).imp id fun ⟨chained, next⟩ => ⟨chained, next.widen _ _⟩

theorem Settled.append {left right : List Seat} (first : Settled stack left)
    (second : Settled (opened stack left) right) : Settled stack (left ++ right) := by
  intro before seat after split
  rcases append_eq_append_cons split with ⟨middle, rfl, rfl⟩ | ⟨middle, rfl, isRight⟩
  · have suits : Suits (opened stack []) before seat middle := first before seat middle rfl
    exact suits.widen right
  · have suits := (second middle seat after isRight).widen []
    rwa [List.append_nil] at suits

theorem Settled.cons {rest : List Seat} (suits : Suits stack [] seat [])
    (settled : Settled (openAfter stack seat) rest) : Settled stack (seat :: rest) := by
  have single : Settled stack [seat] := by
    intro before other after split
    obtain ⟨rfl, rfl, rfl⟩ := singleton_eq_append_cons split
    exact suits
  exact single.append settled

/-- Whatever is open around the row, its leaves suit it and open nothing for what follows. -/
def Neutral (seats : List Seat) : Prop :=
  ∀ stack, Settled stack seats ∧ opened stack seats = stack

end Seat

/-! ### Rows of children -/

namespace Tree

open Seat

variable {token : Token} {row front back : List Tree} {parent : NodeKind} {address : List Nat}

theorem shape?_leaf_of_mark (isMark : token.kind.isBlockMark = true) :
    (leaf token).shape? = some (.leaf token) := by
  rw [shape?, if_neg]
  intro isTrivia
  cases kind : token.kind <;> rw [kind] at isMark isTrivia <;>
    first | (cases isTrivia; done) | cases isMark

theorem shapes_eq_append {front back : List Shape} (same : shapes row = front ++ back) :
    ∃ left right, row = left ++ right ∧ shapes left = front ∧ shapes right = back := by
  rw [shapes_eq_filterMap] at same
  obtain ⟨left, right, split, isFront, isBack⟩ := List.filterMap_eq_append_iff.mp same
  exact ⟨left, right, split, by rw [shapes_eq_filterMap, isFront],
    by rw [shapes_eq_filterMap, isBack]⟩

theorem shapes_eq_append_leaf {front back : List Shape}
    (same : shapes row = front ++ .leaf token :: back) :
    ∃ left right, row = left ++ leaf token :: right ∧ shapes left = front ∧
      shapes right = back := by
  obtain ⟨left, rest, rfl, isFront, isRest⟩ := shapes_eq_append same
  rw [shapes_eq_filterMap] at isRest
  obtain ⟨trivia, tree, right, rfl, isTrivia, isLeaf, isBack⟩ :=
    List.filterMap_eq_cons_iff.mp isRest
  rw [eq_leaf_of_shape? isLeaf]
  refine ⟨left ++ trivia, right, by rw [List.append_assoc], ?_, ?_⟩
  · rw [shapes_append, isFront, shapes_eq_filterMap, List.filterMap_eq_nil_iff.mpr isTrivia,
      List.append_nil]
  · rw [shapes_eq_filterMap, isBack]

/-- Every node in the row, unless it is the root of a tree, is neutral as a child. -/
def NeutralNodes (parent : NodeKind) (address : List Nat) (row : List Tree) : Prop :=
  ∀ child ∈ row, child.isNode = true → child.kind? ≠ some .wholeModule →
    ∀ index, Neutral (child.seatsAt parent address index)

section Flat

variable {parent : NodeKind} {address : List Nat} {row : List Tree}
  (flat : ∀ shape ∈ shapes row, shape.isFlat = true) (inner : NeutralNodes parent address row)

include flat

theorem ne_mark_of_flat (member : leaf token ∈ row) :
    token.kind ≠ .layoutStart ∧ token.kind ≠ .layoutEnd := by
  have unmarked (isMark : token.kind.isBlockMark = true) :
      token.kind ≠ .layoutStart ∧ token.kind ≠ .layoutEnd := by
    have isFlat : (Shape.leaf token).isFlat = true := flat _ (by
      rw [shapes_eq_filterMap, List.mem_filterMap]
      exact ⟨leaf token, member, shape?_leaf_of_mark isMark⟩)
    rw [Shape.isFlat, Shape.avoids, Bool.not_eq_true', List.contains_eq_mem,
      decide_eq_false_iff_not, List.mem_cons, List.mem_singleton, not_or] at isFlat
    exact isFlat
  exact ⟨fun isStart => (unmarked (by rw [isStart]; rfl)).1 isStart,
    fun isEnd => (unmarked (by rw [isEnd]; rfl)).2 isEnd⟩

theorem kind?_ne_of_flat {child : Tree} (member : child ∈ row) :
    child.kind? ≠ some .wholeModule := by
  cases child with
  | leaf token => nofun
  | node kind span error children =>
    have isFlat : (Shape.node kind (shapes children)).isFlat = true := flat _ (by
      rw [shapes_eq_filterMap, List.mem_filterMap]
      exact ⟨_, member, by rw [shape?]⟩)
    intro same
    rw [Option.some.inj same] at isFlat
    cases isFlat

include inner

theorem opened_of_flat (index : Nat) (stack : List Seat) :
    opened stack (forestSeats parent address index row) = stack := by
  induction row generalizing index with
  | nil => rfl
  | cons tree rest ih =>
    have here : opened stack (tree.seatsAt parent address index) = stack := by
      cases tree with
      | leaf token =>
        have unmarked := ne_mark_of_flat flat List.mem_cons_self
        exact openAfter_of_flat stack unmarked.1 unmarked.2
      | node kind span error children =>
        exact (inner _ List.mem_cons_self rfl (kind?_ne_of_flat flat List.mem_cons_self)
          index stack).2
    rw [forestSeats, opened_append, here]
    refine ih (fun shape member => flat shape ?_)
      (fun child member => inner child (List.mem_cons_of_mem _ member)) (index + 1)
    exact List.mem_append_right _ member

theorem settled_of_flat (index : Nat) (stack : List Seat)
    (separates : ∀ front token back, row = front ++ leaf token :: back →
      token.kind = .layoutSep → innermost stack = address ∨
        parent = .instanceChain ∧ IsNextToElse (forestLeaves front) (forestLeaves back)) :
    Settled stack (forestSeats parent address index row) := by
  intro before seat after split
  obtain ⟨front, child, back, early, late, rfl, isChild, rfl, rfl⟩ := forestSeats_split split
  have member : child ∈ front ++ child :: back := List.mem_append_right _ List.mem_cons_self
  cases child with
  | node kind span error children =>
    have neutral := inner _ member rfl (kind?_ne_of_flat flat member) (index + front.length)
    exact ((neutral _).1 early seat late isChild).widen _
  | leaf token =>
    obtain ⟨rfl, rfl, rfl⟩ := singleton_eq_append_cons isChild
    have unmarked := ne_mark_of_flat flat member
    have untouched : opened stack (forestSeats parent address index front) = stack :=
      opened_of_flat (fun shape isIn => flat shape (by
        rw [shapes_append]
        exact List.mem_append_left _ isIn))
        (fun tree isIn => inner tree (List.mem_append_left _ isIn)) index stack
    refine ⟨fun isEnd => absurd isEnd unmarked.2, fun isSeparator => ?_⟩
    rw [List.append_nil, List.nil_append, untouched, map_token_forestSeats, map_token_forestSeats]
    exact separates front token back rfl isSeparator

end Flat

theorem isTrivia_of_blank (blank : shapes row = []) :
    ∀ token ∈ forestLeaves row, token.kind.isTrivia = true := by
  intro token member
  rw [forestLeaves_eq_flatMap] at member
  obtain ⟨tree, inRow, isLeaf⟩ := List.mem_flatMap.mp member
  rw [shapes_eq_filterMap, List.filterMap_eq_nil_iff] at blank
  have hidden := blank tree inRow
  cases tree with
  | node kind span error children => cases hidden
  | leaf other =>
    rw [List.mem_singleton.mp isLeaf]
    rw [shape?] at hidden
    split at hidden
    · assumption
    · cases hidden

theorem firstVisible_else {front : List Token}
    (isTrivia : ∀ token ∈ front, token.kind.isTrivia = true)
    (isElse : (Shape.leaf token).isElse = true) (rest : List Token) :
    firstVisible (front ++ token :: rest) = some (.keyword .elseWord) := by
  have isKind : token.kind = .keyword .elseWord := of_decide_eq_true isElse
  have hidden : front.find? (fun token => token.kind.isVisible) = none :=
    List.find?_eq_none.mpr fun other member visible =>
      nomatch (isTrivia other member).symm.trans (Grammar.not_isTrivia_of_isVisible visible)
  rw [firstVisible, List.find?_append, hidden, Option.none_or,
    List.find?_cons_of_pos (by rw [isKind]; rfl), Option.map_some, isKind]

theorem isNextToElse_of_linked (linked : Shape.Linked (shapes (front ++ leaf token :: back)))
    (isSeparator : token.kind = .layoutSep) :
    IsNextToElse (forestLeaves front) (forestLeaves back) := by
  rw [shapes_append, shapes, shape?_leaf_of_mark (by rw [isSeparator]; rfl)] at linked
  refine (linked _ _ _ rfl (decide_eq_true isSeparator)).imp ?_ ?_
  · rintro ⟨next | ⟨kind, children⟩, first, isElse⟩
    · obtain ⟨rest, isRow⟩ := List.head?_eq_some_iff.mp first
      obtain ⟨left, right, rfl, blank, -⟩ :=
        shapes_eq_append_leaf (isRow.trans (List.nil_append _).symm)
      rw [forestLeaves_append]
      exact firstVisible_else (isTrivia_of_blank blank) isElse _
    · cases isElse
  · rintro ⟨previous | ⟨kind, children⟩, last, isElse⟩
    · obtain ⟨rest, isRow⟩ := List.getLast?_eq_some_iff.mp last
      obtain ⟨left, right, rfl, -, blank⟩ := shapes_eq_append_leaf isRow
      have isTrivia := isTrivia_of_blank blank
      simpa [forestLeaves, leaves] using firstVisible_else (by simpa using isTrivia) isElse _
    · cases isElse

theorem NeutralNodes.mono {part : List Tree} (inner : NeutralNodes parent address row)
    (among : part ⊆ row) : NeutralNodes parent address part :=
  fun child member => inner child (among member)

theorem neutral_of_plain (plain : ∀ shape ∈ shapes row, shape.isPlain = true)
    (inner : NeutralNodes parent address row) (index : Nat) :
    Neutral (forestSeats parent address index row) := by
  intro stack
  have flat := fun shape member => Shape.isFlat_of_isPlain (plain shape member)
  refine ⟨settled_of_flat flat inner index stack fun front token back split isSeparator => ?_,
    opened_of_flat flat inner index stack⟩
  have isPlain := plain _ (by
    rw [split, shapes_append, shapes, shape?_leaf_of_mark (by rw [isSeparator]; rfl)]
    exact List.mem_append_right _ List.mem_cons_self)
  rw [Shape.isPlain, Shape.avoids, isSeparator] at isPlain
  cases isPlain

theorem neutral_of_block {items : List Tree} {start stop : Token}
    (isStart : start.kind = .layoutStart) (isStop : stop.kind = .layoutEnd)
    (frontPlain : ∀ shape ∈ shapes front, shape.isPlain = true)
    (itemsFlat : ∀ shape ∈ shapes items, shape.isFlat = true)
    (backPlain : ∀ shape ∈ shapes back, shape.isPlain = true) (inner : NeutralNodes parent address
      (front ++ leaf start :: (items ++ leaf stop :: back))) :
    Neutral (forestSeats parent address 0
      (front ++ leaf start :: (items ++ leaf stop :: back))) := by
  intro stack
  let opening : Seat := ⟨start, parent, address⟩
  let closing : Seat := ⟨stop, parent, address⟩
  have opens (stack : List Seat) : openAfter stack opening = opening :: stack := by
    simp only [openAfter, opening, isStart]
  have closes (stack : List Seat) : openAfter (opening :: stack) closing = stack := by
    simp only [openAfter, closing, isStop, List.tail_cons]
  have openingSuits : Suits stack [] opening [] :=
    ⟨fun isEnd => absurd (isStart.symm.trans isEnd) nofun,
      fun isSeparator => absurd (isStart.symm.trans isSeparator) nofun⟩
  have closingSuits : Suits (opening :: stack) [] closing [] :=
    ⟨fun _ => ⟨opening, rfl, rfl⟩, fun isSeparator => absurd (isStop.symm.trans isSeparator) nofun⟩
  have innerFront : NeutralNodes parent address front := inner.mono (by simp)
  have innerBack : NeutralNodes parent address back :=
    inner.mono fun child member => by simp [member]
  have ahead := neutral_of_plain frontPlain innerFront 0 stack
  have innerItems : NeutralNodes parent address items :=
    inner.mono fun child member => by simp [member]
  have itemsSettled (index : Nat) := settled_of_flat itemsFlat innerItems index
    (opening :: stack) fun _ _ _ _ _ => .inl rfl
  have itemsOpened (index : Nat) := opened_of_flat itemsFlat innerItems index (opening :: stack)
  have behind (index : Nat) := neutral_of_plain backPlain innerBack index stack
  simp only [forestSeats_append, forestSeats, seatsAt, List.singleton_append]
  constructor
  · refine ahead.1.append ?_
    rw [ahead.2]
    refine Settled.cons openingSuits ?_
    rw [opens]
    refine (itemsSettled _).append ?_
    rw [itemsOpened]
    refine Settled.cons closingSuits ?_
    rw [closes]
    exact (behind _).1
  · rw [opened_append, ahead.2]
    show opened (openAfter stack opening) _ = stack
    rw [opens, opened_append, itemsOpened]
    show opened (openAfter (opening :: stack) closing) _ = stack
    rw [closes]
    exact (behind _).2

/-- The children of a node are settled if they are arranged, and open nothing behind them. -/
theorem settled_children {kind : NodeKind} {children : List Tree}
    (arranged : Arranged kind (shapes children)) (inner : NeutralNodes kind address children)
    {stack : List Seat} (top : kind = .wholeModule → innermost stack = address) :
    Settled stack (forestSeats kind address 0 children) ∧
      opened stack (forestSeats kind address 0 children) = stack := by
  generalize isRow : shapes children = row at arranged
  cases arranged with
  | plain isPlain =>
    subst isRow
    exact neutral_of_plain isPlain inner 0 stack
  | top isFlat =>
    subst isRow
    exact ⟨settled_of_flat isFlat inner 0 stack fun _ _ _ _ _ => .inl (top rfl),
      opened_of_flat isFlat inner 0 stack⟩
  | chain isFlat linked =>
    subst isRow
    refine ⟨settled_of_flat isFlat inner 0 stack fun front token back split isSeparator => ?_,
      opened_of_flat isFlat inner 0 stack⟩
    rw [split] at linked
    exact .inr ⟨rfl, isNextToElse_of_linked linked isSeparator⟩
  | block isStart isStop frontPlain alternate backPlain =>
    obtain ⟨front, rest, rfl, rfl, isRest⟩ := shapes_eq_append_leaf isRow
    obtain ⟨items, back, rfl, rfl, rfl⟩ := shapes_eq_append_leaf isRest
    exact neutral_of_block isStart isStop frontPlain (Phrase.isFlat_of_items alternate)
      backPlain inner stack

variable {table? : Option OperatorTable}

theorem neutralNodes_of_formed (parent : NodeKind) (address : List Nat) :
    (row : List Tree) → (∀ shape ∈ shapes row, shape.Formed table?) →
      NeutralNodes parent address row
  | [], _ => List.forall_mem_nil _
  | leaf _ :: rest, formed =>
    List.forall_mem_cons.mpr ⟨by rintro ⟨⟩, neutralNodes_of_formed parent address rest
      fun shape member => formed shape (List.mem_append_right _ member)⟩
  | node kind span error children :: rest, formed => by
    obtain ⟨own, later⟩ := List.forall_mem_cons.mp formed
    refine List.forall_mem_cons.mpr ⟨fun _ other index stack => ?_,
      neutralNodes_of_formed parent address rest later⟩
    cases own with
    | node spelled parts =>
      exact settled_children (arranged_of_spelled spelled.1)
        (neutralNodes_of_formed kind (index :: address) children parts)
        fun same => absurd (congrArg some same) other

def isSeparator : Tree → Bool
  | leaf token => token.kind = .layoutSep
  | node _ _ _ _ => false

theorem countP_shapes (row : List Tree) :
    (shapes row).countP Shape.isNode = row.countP isNode ∧
      (shapes row).countP Shape.isSeparator = row.countP isSeparator := by
  rw [shapes_eq_filterMap, List.countP_filterMap, List.countP_filterMap]
  refine ⟨List.countP_congr fun tree _ => ?_, List.countP_congr fun tree _ => ?_⟩
  · cases tree with
    | node kind span error children => rw [shape?]; rfl
    | leaf token =>
      rw [shape?]
      split <;> rfl
  · cases tree with
    | node kind span error children => rw [shape?]; rfl
    | leaf token =>
      rw [shape?]
      split
      · next isTrivia =>
          have other : isSeparator (leaf token) = false := decide_eq_false fun same => by
            rw [same] at isTrivia
            cases isTrivia
          rw [other]
          rfl
      · rfl

/-- A block among the children of a node has one item more than separators, or it is empty. -/
theorem countP_between {kind : NodeKind} {children body : List Tree} {start stop : Token}
    (spelled : shapes children ∈ production kind)
    (split : children = front ++ leaf start :: (body ++ leaf stop :: back))
    (isStart : start.kind = .layoutStart) (isStop : stop.kind = .layoutEnd) :
    body.countP isNode = body.countP isSeparator + 1 ∨
      body.countP isNode = 0 ∧ body.countP isSeparator = 0 := by
  obtain ⟨nodes, separators⟩ := countP_shapes body
  rw [← nodes, ← separators]
  have row : shapes children =
      shapes front ++ .leaf start :: (shapes body ++ .leaf stop :: shapes back) := by
    rw [split, shapes_append, shapes, shapes_append, shapes,
      shape?_leaf_of_mark (by rw [isStart]; rfl), shape?_leaf_of_mark (by rw [isStop]; rfl)]
    rfl
  exact (arranged_of_spelled spelled).countP_between row isStart isStop

theorem settled_seats {tree : Tree} {row : List Shape}
    (isRoot : tree.shape? = some (.node .wholeModule row))
    (formed : (Shape.node .wholeModule row).Formed table?) :
    tree.kind? = some .wholeModule ∧ Settled [] tree.seats ∧ opened [] tree.seats = [] := by
  cases tree with
  | leaf token =>
    rw [shape?] at isRoot
    split at isRoot <;> cases isRoot
  | node kind span error children =>
    cases isRoot
    cases formed with
    | node spelled parts =>
      exact ⟨rfl, settled_children (arranged_of_spelled spelled.1)
        (neutralNodes_of_formed .wholeModule [] children parts) fun _ => rfl⟩

end Tree

/-- The blocks of the layout are nodes of the tree. -/
structure Tree.BlocksAreNodes (root : Tree) : Prop where
  /-- What stands outside all blocks stands below a module. -/
  isModule : root.kind? = some .wholeModule
  /-- Every block is closed. -/
  closed : Seat.opened [] root.seats = []
  /--
  The mark that closes a block is a child of the same node as the mark that
  opens it.
  -/
  closes : ∀ before seat after, root.seats = before ++ seat :: after →
    seat.token.kind = .layoutEnd →
      ∃ start ∈ (Seat.opened [] before).head?, start.address = seat.address
  /--
  A separator is a child of the node of the innermost open block, or of the root
  if no block is open, or of a chain of instances next to an `else`.
  -/
  separates : ∀ before seat after, root.seats = before ++ seat :: after →
    seat.token.kind = .layoutSep →
      Seat.innermost (Seat.opened [] before) = seat.address ∨
        seat.parent = .instanceChain ∧
          IsNextToElse (before.map Seat.token) (after.map Seat.token)
  /--
  Between the marks of a block, its node has one item more than it has
  separators, or neither items nor separators.
  -/
  alternates : ∀ node ∈ root.descendants, ∀ front start body stop back,
    node.children = front ++ .leaf start :: (body ++ .leaf stop :: back) →
      start.kind = .layoutStart → stop.kind = .layoutEnd →
        body.countP isNode = body.countP isSeparator + 1 ∨
          body.countP isNode = 0 ∧ body.countP isSeparator = 0

namespace Parse

/--
If a parse is finished and nothing in the text is malformed, the blocks of the
layout are nodes of the tree.
-/
theorem blocksAreNodes_root (options : ParseOptions) (seed : OperatorTable)
    (isCancelled : Nat → Bool) (source : String)
    (finished : (run options seed isCancelled source).cancelled = false)
    (clean : (run options seed isCancelled source).parse.hasErrors = false) :
    (run options seed isCancelled source).parse.root.BlocksAreNodes := by
  obtain ⟨row, isRoot, formed⟩ :=
    Job.formed_root ⟨options, seed, isCancelled, source⟩ finished clean
  obtain ⟨isModule, settled, closed⟩ := Tree.settled_seats isRoot formed
  refine ⟨isModule, closed, fun before seat after split => (settled before seat after split).closes,
    fun before seat after split => (settled before seat after split).separates, ?_⟩
  intro node member front start body stop back split isStart isStop
  rw [Tree.descendants_eq_nodes] at member
  obtain ⟨kind, -, spelled, -⟩ := Tree.formed_nodes isRoot formed node member
  exact Tree.countP_between spelled.1 split isStart isStop

/-- A block in a declaration, and a chain of two instances, outside all blocks. -/
theorem blocksAreNodes_root_chain :
    (run {} .standard (fun _ => false)
      "x = do\n  y\n  z\ninstance A B\nelse instance A C").cancelled = false ∧
    (run {} .standard (fun _ => false)
      "x = do\n  y\n  z\ninstance A B\nelse instance A C").parse.hasErrors = false ∧
    ((run {} .standard (fun _ => false)
      "x = do\n  y\n  z\ninstance A B\nelse instance A C").parse.root.leaves.filter fun token =>
        token.kind.isBlockMark).length = 5 ∧
    (run {} .standard (fun _ => false)
      "x = do\n  y\n  z\ninstance A B\nelse instance A C").parse.root.BlocksAreNodes :=
  ⟨by decide +kernel, by decide +kernel, by decide +kernel,
    blocksAreNodes_root {} .standard _ _ (by decide +kernel) (by decide +kernel)⟩

end Parse

end Offside
