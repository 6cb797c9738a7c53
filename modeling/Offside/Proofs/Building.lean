import Mathlib.Data.List.Basic
import Offside.Tree.Direct

/-!
# Events describe the tree of their trail

Events reach a tree by a detour: a node opened around an earlier one is only
found through links, and what a mark records may be changed by a later mark.
This module follows a trail both ways.  A stretch of events stands for a
finished node if running it, with any links to nodes around it put in later,
adds that node to whatever is open and empties the events it was linked to.
What is recorded so far then splits into one row of such stretches for every
open node, and a trail that closes the node it opened first yields the tree it
describes directly.
-/

namespace Offside

namespace Event

/-- The same event with another link to the node around it. -/
def relink (outer : Option Nat) : Event → Event
  | start kind error _ => start kind error outer
  | event => event

theorem linkTo_eq_relink (place : Nat) : linkTo place = relink (some place) := by
  funext event
  cases event <;> rfl

theorem relink_comp_relink (first second : Option Nat) :
    relink second ∘ relink first = relink second := by
  funext event
  cases event <;> rfl

end Event

namespace Tree

/-! ### Running a stretch of events -/

def runPlaces (base count : Nat) (pass : Array Event × Builder) : Array Event × Builder :=
  (List.range' base count).foldl Builder.step pass

/-- The stretch stands among the events from the place `base` on. -/
def Located (events : Array Event) (base : Nat) (stretch : List Event) : Prop :=
  ∀ index event, stretch[index]? = some event → events[base + index]? = some event

/-- From the place `limit` on, only the events at `places` have changed: they are empty. -/
def Emptied (limit : Nat) (places : List Nat) (events passed : Array Event) : Prop :=
  ∀ place, limit ≤ place →
    passed[place]? = if place ∈ places then some .nothing else events[place]?

/-- The links lead through `places` to the nodes `around`, innermost first, and never back. -/
inductive Chain (events : Array Event) :
    Option Nat → List Nat → List (NodeKind × Option Diagnostic) → Prop where
  | unlinked : Chain events none [] []
  | forsaken {place : Nat} (empty : events[place]? = some .nothing) :
      Chain events (some place) [] []
  | start {place : Nat} {kind : NodeKind} {error : Option Diagnostic} {outer : Option Nat}
      {places : List Nat} {around : List (NodeKind × Option Diagnostic)}
      (found : events[place]? = some (.start kind error outer))
      (onward : ∀ next ∈ outer, place < next) (chain : Chain events outer places around) :
      Chain events (some place) (place :: places) ((kind, error) :: around)

/-- Tokens still to be taken, and the end of the last one taken. -/
structure Cursor where
  tokens : List Token
  offset : Nat

namespace Builder

def cursor (builder : Builder) : Cursor :=
  ⟨builder.tokens, builder.offset⟩

def moveTo (builder : Builder) (cursor : Cursor) : Builder :=
  { builder with tokens := cursor.tokens, offset := cursor.offset }

def pushAll (builder : Builder) (around : List (NodeKind × Option Diagnostic)) : Builder :=
  around.foldr (fun (kind, error) builder => builder.push kind error) builder

@[simp]
theorem cursor_pushAll (builder : Builder) (around : List (NodeKind × Option Diagnostic)) :
    (builder.pushAll around).cursor = builder.cursor := by
  induction around with
  | nil => rfl
  | cons next rest ih => exact ih

@[simp]
theorem cursor_push (builder : Builder) (kind : NodeKind) (error : Option Diagnostic) :
    (builder.push kind error).cursor = builder.cursor := by
  rfl

theorem moveTo_adopt (builder : Builder) (tree : Tree) (cursor : Cursor) :
    (builder.moveTo cursor).adopt tree = (builder.adopt tree).moveTo cursor := by
  obtain ⟨stack, root, tokens, offset⟩ := builder
  cases stack with
  | nil => cases isNode : tree.isNode <;> simp [adopt, moveTo, isNode]
  | cons parent rest => rfl

end Builder

variable {index base count target place limit later : Nat} {events halfway passed : Array Event}
  {tree : Tree} {places early late : List Nat} {outer : Option Nat}
  {around : List (NodeKind × Option Diagnostic)} {wider : Nat → Prop} {frame : Trail.Frame}
  {top : Direct.Frame}

theorem runPlaces_add (base left right : Nat) (pass : Array Event × Builder) :
    runPlaces base (left + right) pass =
      runPlaces (base + left) right (runPlaces base left pass) := by
  rw [runPlaces, ← List.range'_append_1, List.foldl_append]
  rfl

theorem Located.left {left right : List Event} (located : Located events base (left ++ right)) :
    Located events base left := by
  intro index event found
  refine located index event ?_
  rw [List.getElem?_append_left (List.getElem?_eq_some_iff.mp found).1]
  exact found

theorem Located.right {left right : List Event} (located : Located events base (left ++ right)) :
    Located events (base + left.length) right := by
  intro index event found
  rw [Nat.add_assoc]
  refine located _ event ?_
  rw [List.getElem?_append_right (Nat.le_add_right ..), Nat.add_sub_cancel_left]
  exact found

theorem Located.last {event : Event} {stretch : List Event}
    (located : Located events base (stretch ++ [event])) :
    events[base + stretch.length]? = some event :=
  located _ event (by simp)

theorem emptied_self (limit : Nat) (events : Array Event) : Emptied limit [] events events :=
  fun _ _ => by simp

theorem emptied_behind (events : Array Event) (place : Nat) :
    Emptied (place + 1) [] events (events.setIfInBounds place .nothing) := by
  intro other beyond
  rw [Array.getElem?_setIfInBounds_ne (by omega)]
  simp

theorem Emptied.trans (head : Emptied limit early events halfway)
    (tail : Emptied later late halfway passed) (le : limit ≤ later)
    (both : ∀ place, later ≤ place → (place ∈ places ↔ place ∈ early ∨ place ∈ late)) :
    Emptied later places events passed := by
  intro place beyond
  rw [tail place beyond, head place (Nat.le_trans le beyond)]
  by_cases isLate : place ∈ late
  · rw [if_pos isLate, if_pos ((both place beyond).mpr (.inr isLate))]
  · have same : place ∈ places ↔ place ∈ early := by simp [both place beyond, isLate]
    rw [if_neg isLate, if_congr same rfl rfl]

theorem Located.of_emptied {stretch : List Event} (located : Located events base stretch)
    (emptied : Emptied limit places events passed) (le : limit ≤ base)
    (apart : ∀ place ∈ places, base + stretch.length ≤ place) :
    Located passed base stretch := by
  intro index event found
  have inside : index < stretch.length := (List.getElem?_eq_some_iff.mp found).1
  have kept : base + index ∉ places := by
    intro member
    have behind := apart _ member
    omega
  rw [emptied _ (by omega), if_neg kept]
  exact located index event found

theorem Chain.of_emptied {link : Option Nat} (chain : Chain events link places around)
    (emptied : Emptied limit [] events passed) (beyond : ∀ place ∈ link, limit ≤ place) :
    Chain passed link places around := by
  induction chain with
  | unlinked => exact .unlinked
  | @forsaken place empty =>
    refine .forsaken ?_
    rw [emptied place (beyond place rfl)]
    simpa using empty
  | @start place _ _ _ _ _ found onward chain ih =>
    have reached : limit ≤ place := beyond place rfl
    refine .start ?_ onward (ih fun next isNext => ?_)
    · rw [emptied place reached]
      simpa using found
    · exact Nat.le_trans reached (Nat.le_of_lt (onward next isNext))

theorem Chain.le_of_mem {link : Option Nat} (chain : Chain events link places around)
    (beyond : ∀ place ∈ link, limit ≤ place) : ∀ place ∈ places, limit ≤ place := by
  induction chain with
  | unlinked | forsaken => simp
  | @start place _ _ _ _ _ found onward chain ih =>
    have reached : limit ≤ place := beyond place rfl
    intro other member
    rcases List.mem_cons.mp member with rfl | further
    · exact reached
    · refine ih (fun next isNext => ?_) other further
      exact Nat.le_trans reached (Nat.le_of_lt (onward next isNext))

theorem Chain.hoist_eq {link : Option Nat} (chain : Chain events link places around)
    (bound : Nat) (enough : ∀ place ∈ link, events.size ≤ bound + place) :
    ∃ passed, hoist bound link events = (around, passed) ∧
      ∀ limit, Emptied limit places events passed := by
  induction bound generalizing events link places around with
  | zero =>
    cases chain with
    | unlinked => exact ⟨events, rfl, fun limit => emptied_self limit events⟩
    | forsaken empty =>
      have present := (Array.getElem?_eq_some_iff.mp empty).1
      have reached := enough _ rfl
      omega
    | start found onward chain =>
      have present := (Array.getElem?_eq_some_iff.mp found).1
      have reached := enough _ rfl
      omega
  | succ bound ih =>
    cases chain with
    | unlinked => exact ⟨events, rfl, fun limit => emptied_self limit events⟩
    | @forsaken place empty =>
      refine ⟨events.setIfInBounds place .nothing, by simp only [hoist, empty], ?_⟩
      intro limit other beyond
      have present := (Array.getElem?_eq_some_iff.mp empty).1
      rw [Array.getElem?_setIfInBounds]
      by_cases same : place = other
      · rw [if_pos same, if_pos present, ← same, empty]
        simp
      · simp [same]
    | @start place kind error outer places around found onward chain =>
      have present := (Array.getElem?_eq_some_iff.mp found).1
      have reached := enough place rfl
      have further := chain.of_emptied (emptied_behind events place) onward
      obtain ⟨passed, hoisted, emptied⟩ := ih further (by
        intro next isNext
        have behind := onward next isNext
        rw [Array.size_setIfInBounds]
        omega)
      refine ⟨passed, by simp only [hoist, found, hoisted], ?_⟩
      intro limit other beyond
      rw [emptied limit other beyond, Array.getElem?_setIfInBounds]
      by_cases same : place = other
      · simp [← same, present]
      · simp [same, Ne.symm same]

/-- A start opens the nodes it is linked to and its own, and empties the events of the former. -/
theorem step_start {kind : NodeKind} {error : Option Diagnostic} (builder : Builder)
    (found : events[place]? = some (.start kind error outer))
    (chain : Chain events outer places around) (onward : ∀ next ∈ outer, place < next) :
    ∃ passed, Builder.step (events, builder) place =
        (passed, (builder.pushAll around).push kind error) ∧
      Emptied (place + 1) places events passed := by
  have behind := emptied_behind events place
  obtain ⟨passed, hoisted, emptied⟩ :=
    (chain.of_emptied behind onward).hoist_eq events.size fun next _ => by
      rw [Array.size_setIfInBounds]
      exact Nat.le_add_right ..
  refine ⟨passed, ?_, behind.trans (emptied (place + 1)) (Nat.le_refl _) (by simp)⟩
  simp only [Builder.step, found, hoisted]
  rfl

theorem step_nothing (builder : Builder) (empty : events[place]? = some .nothing) :
    Builder.step (events, builder) place = (events.setIfInBounds place .nothing, builder) := by
  simp only [Builder.step, empty]

theorem step_token (builder : Builder) (found : events[place]? = some .token) :
    Builder.step (events, builder) place =
      (events.setIfInBounds place .nothing, builder.take) := by
  simp only [Builder.step, found]

theorem step_finish (builder : Builder) (found : events[place]? = some .finish) :
    Builder.step (events, builder) place =
      (events.setIfInBounds place .nothing, builder.close) := by
  simp only [Builder.step, found]

theorem getElem?_setIfInBounds_nothing (other : Nat)
    (empty : events[place]? = some .nothing) :
    (events.setIfInBounds other .nothing)[place]? = some .nothing := by
  rw [Array.getElem?_setIfInBounds]
  have present := (Array.getElem?_eq_some_iff.mp empty).1
  split
  · next same => rw [if_pos (same ▸ present)]
  · exact empty

theorem getElem?_hoist (bound : Nat) (link : Option Nat)
    (empty : events[place]? = some .nothing) :
    (hoist bound link events).2[place]? = some .nothing := by
  induction bound generalizing link events with
  | zero => exact empty
  | succ bound ih =>
    cases link with
    | none => exact empty
    | some other =>
      have still := getElem?_setIfInBounds_nothing other empty
      rw [hoist]
      split
      · exact ih _ still
      · exact still

theorem getElem?_step (builder : Builder) (other : Nat)
    (empty : events[place]? = some .nothing) :
    (Builder.step (events, builder) other).1[place]? = some .nothing := by
  have still := getElem?_setIfInBounds_nothing other empty
  rw [Builder.step]
  split
  · exact getElem?_hoist _ _ still
  all_goals exact still

theorem getElem?_runPlaces (builder : Builder) (base count : Nat)
    (empty : events[place]? = some .nothing) :
    (runPlaces base count (events, builder)).1[place]? = some .nothing := by
  induction count with
  | zero => exact empty
  | succ count ih =>
    rw [runPlaces_add]
    exact getElem?_step _ _ ih

/--
A start that has been opened around an earlier node is passed over where it
stands, whatever is read in between.
-/
theorem step_hoisted {kind : NodeKind} {error : Option Diagnostic} {other : Nat}
    (builder : Builder) (found : events[place]? = some (.start kind error outer))
    (chain : Chain events outer places around) (onward : ∀ next ∈ outer, place < next)
    (hoisted : other ∈ places) (count : Nat) :
    (Builder.step (runPlaces place (1 + count) (events, builder)) other).2 =
      (runPlaces place (1 + count) (events, builder)).2 := by
  obtain ⟨passed, stepped, emptied⟩ := step_start builder found chain onward
  have empty : passed[other]? = some .nothing := by
    rw [emptied other (chain.le_of_mem onward other hoisted), if_pos hoisted]
  have still := getElem?_runPlaces ((builder.pushAll around).push kind error)
    (place + 1) count empty
  have reached : runPlaces place (1 + count) (events, builder) =
      runPlaces (place + 1) count (Builder.step (events, builder) place) :=
    runPlaces_add place 1 count (events, builder)
  rw [reached, stepped]
  generalize runPlaces (place + 1) count _ = pass at still ⊢
  obtain ⟨rest, later⟩ := pass
  rw [step_nothing later still]

theorem Emptied.getElem?_eq (emptied : Emptied limit [] events passed) (beyond : limit ≤ place) :
    passed[place]? = events[place]? := by
  rw [emptied place beyond]
  simp

theorem Emptied.snoc {builder built next : Builder} {stretch : List Event} {event : Event}
    (emptied : Emptied (base + stretch.length) places events passed)
    (ran : runPlaces base stretch.length (events, builder) = (passed, built))
    (stepped : Builder.step (passed, built) (base + stretch.length) =
      (passed.setIfInBounds (base + stretch.length) .nothing, next)) :
    ∃ passed, runPlaces base (stretch ++ [event]).length (events, builder) = (passed, next) ∧
      Emptied (base + (stretch ++ [event]).length) places events passed := by
  refine ⟨passed.setIfInBounds (base + stretch.length) .nothing, ?_, ?_⟩
  · rw [List.length_append, runPlaces_add, ran]
    exact stepped
  · rw [List.length_append]
    exact emptied.trans (emptied_behind passed _) (Nat.le_succ _) (by simp)

/-! ### Stretches that stand for finished nodes -/

/-- Nodes opened around others and then given up leave their places, from `limit` on, empty. -/
def Forsaken (dead : Nat → Prop) (limit : Nat) (events : Array Event) : Prop :=
  ∀ place, limit ≤ place → dead place → events[place]? = some .nothing

/--
The stretch, to stand at `base`, adds a finished node, whatever nodes the
event at `index` is linked to later on, and empties the events of those.
-/
structure NodeStretch (dead : Nat → Prop) (base : Nat) (stretch : List Event)
    (index : Nat) (before : Cursor) (tree : Tree) (after : Cursor) : Prop where
  inside : index < stretch.length
  unlinked : stretch.modify index (Event.relink none) = stretch
  runs : ∀ {events : Array Event} {outer : Option Nat} {places : List Nat}
    {around : List (NodeKind × Option Diagnostic)} {builder : Builder},
    Forsaken dead base events →
    Located events base (stretch.modify index (Event.relink outer)) →
    (∀ place ∈ outer, base + stretch.length ≤ place) →
    Chain events outer places around → builder.cursor = before →
    ∃ passed, runPlaces base stretch.length (events, builder) =
        (passed, ((builder.pushAll around).adopt tree).moveTo after) ∧
      Emptied (base + stretch.length) places events passed

variable (dead : Nat → Prop) (base : Nat) (before : Cursor) in
/--
The stretch, to stand at `base`, adds a row of children, last first, each with
the place of its event if it is a node that may be linked to another one.
-/
inductive Pieces :
    List Event → List (Option Nat × Tree) → Cursor → Prop where
  | nil : Pieces [] [] before
  | empty {stretch : List Event} {children : List (Option Nat × Tree)}
      {after : Cursor} (pieces : Pieces stretch children after) :
      Pieces (stretch ++ [.nothing]) children after
  | token {stretch : List Event} {children : List (Option Nat × Tree)}
      {token : Token} {rest : List Token} {offset : Nat}
      (pieces : Pieces stretch children ⟨token :: rest, offset⟩) :
      Pieces (stretch ++ [.token])
        ((none, leaf token) :: children) ⟨rest, token.span.stop⟩
  | node {stretch inner : List Event} {children : List (Option Nat × Tree)}
      {index : Nat} {link outer : Option Nat} {tree : Tree} {middle after : Cursor}
      (pieces : Pieces stretch children middle)
      (stands : NodeStretch dead (base + stretch.length) inner index middle tree after)
      (own : ∀ place ∈ link, place = base + stretch.length + index)
      (forsaken : ∀ place ∈ outer,
        dead place ∧ base + stretch.length + inner.length ≤ place) :
      Pieces
        (stretch ++ inner.modify index (Event.relink outer))
        ((link, tree) :: children) after

variable {dead : Nat → Prop} {base : Nat} {before middle after : Cursor}
  {stretch : List Event} {children : List (Option Nat × Tree)}

theorem Forsaken.of_emptied (forsaken : Forsaken dead limit events)
    (emptied : Emptied later places events passed) (le : limit ≤ later) :
    Forsaken dead later passed := by
  intro place beyond given
  rw [emptied place beyond, forsaken place (Nat.le_trans le beyond) given, ite_self]

theorem chain_of_forsaken (forsaken : Forsaken dead limit events)
    (given : ∀ place ∈ outer, dead place ∧ limit ≤ place) : Chain events outer [] [] := by
  cases outer with
  | none => exact .unlinked
  | some place =>
    obtain ⟨isDead, beyond⟩ := given place rfl
    exact .forsaken (forsaken place beyond isDead)

theorem Pieces.runs (pieces : Pieces dead base before stretch children after) {builder : Builder}
    {frame : OpenNode} {below : List OpenNode} (forsaken : Forsaken dead base events)
    (located : Located events base stretch) (here : builder.cursor = before)
    (stack : builder.stack = frame :: below) :
    ∃ passed, runPlaces base stretch.length (events, builder) =
        (passed, ({ builder with
          stack := { frame with
            children := children.map Prod.snd ++ frame.children } :: below }
          : Builder).moveTo after) ∧
      Emptied (base + stretch.length) [] events passed := by
  induction pieces with
  | nil =>
    refine ⟨events, ?_, emptied_self _ events⟩
    rw [← here, List.map_nil, List.nil_append, ← stack]
    rfl
  | empty pieces ih =>
    obtain ⟨passed, ran, emptied⟩ := ih located.left
    have found := (emptied.getElem?_eq (Nat.le_refl _)).trans located.last
    exact emptied.snoc ran (step_nothing _ found)
  | token pieces ih =>
    obtain ⟨passed, ran, emptied⟩ := ih located.left
    have found := (emptied.getElem?_eq (Nat.le_refl _)).trans located.last
    exact emptied.snoc ran (step_token _ found)
  | @node stretch inner row _ _ outer _ halfway _ pieces stands own given ih =>
    obtain ⟨reached, ran, emptied⟩ := ih located.left
    have still := forsaken.of_emptied emptied (Nat.le_add_right ..)
    have onward (place : Nat) (linked : place ∈ outer) :
        dead place ∧ base + stretch.length ≤ place :=
      ⟨(given place linked).1, Nat.le_trans (Nat.le_add_right ..) (given place linked).2⟩
    have cursor : (({ builder with
        stack := { frame with children := row.map Prod.snd ++ frame.children } :: below }
        : Builder).moveTo halfway).cursor = halfway := rfl
    obtain ⟨passed, ranNode, emptiedNode⟩ := stands.runs still
      (located.right.of_emptied emptied (Nat.le_refl _) (by simp))
      (fun place linked => (given place linked).2) (chain_of_forsaken still onward) cursor
    refine ⟨passed, ?_, ?_⟩
    · rw [List.length_append, List.length_modify, runPlaces_add, ran, ranNode]
      rfl
    · rw [List.length_append, List.length_modify, ← Nat.add_assoc]
      exact emptied.trans emptiedNode (Nat.le_add_right ..) (by simp)

theorem Pieces.append {more : List Event} {later : List (Option Nat × Tree)}
    (pieces : Pieces dead base before stretch children middle)
    (rest : Pieces dead (base + stretch.length) middle more later after) :
    Pieces dead base before (stretch ++ more) (later ++ children) after := by
  induction rest with
  | nil => simpa using pieces
  | empty rest ih =>
    rw [← List.append_assoc]
    exact .empty ih
  | token rest ih =>
    rw [← List.append_assoc]
    exact .token ih
  | @node more inner later index link outer tree middle after rest stands own given ih =>
    have length : base + stretch.length + more.length =
        base + (stretch ++ more).length := by
      simp [Nat.add_assoc]
    rw [length] at stands own given
    rw [← List.append_assoc]
    exact .node ih stands own given

theorem Pieces.split (pieces : Pieces dead base before stretch children after)
    (chosen : children[count]? = some (some target, tree)) :
    ∃ front inner back index outer start stop,
      stretch = front ++ inner.modify index (Event.relink outer) ++ back ∧
      target = base + front.length + index ∧
      Pieces dead base before front (children.drop (count + 1)) start ∧
      NodeStretch dead (base + front.length) inner index start tree stop ∧
      Pieces dead (base + (front ++ inner).length) stop back
        (children.take count) after := by
  induction pieces generalizing count with
  | nil => simp at chosen
  | empty pieces ih =>
    obtain ⟨front, inner, back, index, outer, start, stop, rfl, rfl, earlier,
      stands, later⟩ := ih chosen
    exact ⟨front, inner, back ++ [.nothing], index, outer, start, stop,
      by simp, rfl, earlier, stands, later.empty⟩
  | token pieces ih =>
    cases count with
    | zero => simp at chosen
    | succ count =>
      obtain ⟨front, inner, back, index, outer, start, stop, rfl, rfl,
        earlier, stands, later⟩ := ih chosen
      exact ⟨front, inner, back ++ [.token], index, outer, start, stop,
        by simp, rfl, earlier, stands, later.token⟩
  | @node stretch inner children index link outer found middle after pieces stands
      own given ih =>
      cases count with
      | zero =>
        obtain ⟨rfl, rfl⟩ := chosen
        exact ⟨stretch, inner, [], index, outer, middle, after, by simp,
          own target rfl, pieces, stands, .nil⟩
      | succ count =>
        obtain ⟨front, first, back, place, link, start, stop, rfl, rfl,
          earlier, chosenStands, later⟩ := ih chosen
        refine ⟨front, first, back ++ inner.modify index (Event.relink outer),
          place, link, start, stop, by simp, rfl, earlier, chosenStands, ?_⟩
        have length : base + (front ++ first.modify place (Event.relink link) ++
            back).length = base + (front ++ first).length + back.length := by
          simp [Nat.add_assoc]
        rw [length] at stands own given
        exact later.node stands own given

theorem Forsaken.mono (extends_ : ∀ place, dead place → wider place)
    (forsaken : Forsaken wider limit events) : Forsaken dead limit events :=
  fun place beyond given => forsaken place beyond (extends_ place given)

theorem NodeStretch.mono (extends_ : ∀ place, dead place → wider place)
    (stands : NodeStretch dead base stretch index before tree after) :
    NodeStretch wider base stretch index before tree after where
  inside := stands.inside
  unlinked := stands.unlinked
  runs forsaken located := stands.runs (forsaken.mono extends_) located

theorem Pieces.mono (extends_ : ∀ place, dead place → wider place)
    (pieces : Pieces dead base before stretch children after) :
    Pieces wider base before stretch children after := by
  induction pieces with
  | nil => exact .nil
  | empty pieces ih => exact ih.empty
  | token pieces ih => exact ih.token
  | node pieces stands own given ih =>
    exact ih.node (stands.mono extends_) own fun place linked =>
      ⟨extends_ place (given place linked).1, (given place linked).2⟩

theorem ofChildren_eq_of_ne_nil (kind : NodeKind) (error : Option Diagnostic)
    (first second : Nat) {trees : List Tree} (nonempty : trees ≠ []) :
    ofChildren kind error first trees = ofChildren kind error second trees := by
  have equal : spanOf first trees = spanOf second trees := by
    cases trees with
    | nil => exact absurd rfl nonempty
    | cons tree rest => simp [spanOf, List.getLast?_cons]
  rw [ofChildren, ofChildren, equal]

theorem Pieces.enclose (kind : NodeKind) (error : Option Diagnostic)
    (pieces : Pieces dead (base + 1) before stretch children after) :
    NodeStretch dead base (.start kind error none :: stretch ++ [.finish]) 0
      before (ofChildren kind error before.offset (children.map Prod.snd).reverse)
      after where
  inside := by simp
  unlinked := rfl
  runs := by
    intro events outer places around builder forsaken located beyond chain here
    have length : (Event.start kind error none :: stretch ++ [Event.finish]).length =
        1 + (stretch ++ [Event.finish]).length := by
      simp [Nat.add_comm]
    rw [length] at beyond ⊢
    have parts : Located events base
        ([.start kind error outer] ++ (stretch ++ [.finish])) := located
    obtain ⟨opened, stepped, emptied⟩ :=
      step_start builder (located 0 _ rfl) chain fun next linked => by
        have behind := beyond next linked
        omega
    have inner : Located opened (base + 1) (stretch ++ [.finish]) := by
      refine parts.right.of_emptied emptied (Nat.le_refl _) fun place hoisted => ?_
      have behind := chain.le_of_mem beyond place hoisted
      rw [List.length_singleton]
      omega
    have cursor : ((builder.pushAll around).push kind error).cursor = before := by
      rw [Builder.cursor_push, Builder.cursor_pushAll, here]
    have offset : (builder.pushAll around).offset = before.offset :=
      congrArg Cursor.offset cursor
    obtain ⟨filled, ran, kept⟩ :=
      pieces.runs (forsaken.of_emptied emptied (Nat.le_succ base)) inner.left cursor rfl
    have found := (kept.getElem?_eq (Nat.le_refl _)).trans inner.last
    obtain ⟨passed, ranAll, keptAll⟩ := kept.snoc ran (step_finish _ found)
    refine ⟨passed, ?_, ?_⟩
    · have first : runPlaces base 1 (events, builder) = _ := stepped
      rw [runPlaces_add, first, ranAll, ← offset, ← Builder.moveTo_adopt, List.append_nil]
      rfl
    · rw [← Nat.add_assoc]
      exact emptied.trans keptAll (Nat.le_add_right ..) (by simp)

theorem modify_append_middle {α : Type} (front inner back : List α)
    (inside : index < inner.length) (f : α → α) :
    (front ++ inner ++ back).modify (front.length + index) f =
      front ++ inner.modify index f ++ back := by
  rw [List.append_assoc, List.append_assoc, List.modify_eq_take_drop,
    List.take_length_add_append, List.drop_length_add_append,
    List.append_assoc, List.modify_eq_take_drop (f := f) inner index]
  rw [List.take_append_of_le_length (Nat.le_of_lt inside),
    List.drop_append_of_le_length (Nat.le_of_lt inside), List.append_assoc]
  rw [List.drop_eq_getElem_cons inside]
  rfl

/-- With the start at `hole` hoisted, the stretch stands as it stood before it was filled. -/
theorem Located.of_hoisted {event : Event} {hole : Nat}
    (located : Located events base (stretch.set hole event))
    (empty : stretch[hole]? = some .nothing)
    (emptied : Emptied base ((base + hole) :: places) events passed)
    (apart : ∀ place ∈ places, base + stretch.length ≤ place) :
    Located passed base stretch := by
  intro index planned found
  have inside := (List.getElem?_eq_some_iff.mp found).1
  rw [emptied _ (Nat.le_add_right ..)]
  by_cases same : index = hole
  · rw [same, empty] at found
    rw [same, if_pos (List.mem_cons_self ..), found]
  · have kept : base + index ∉ (base + hole) :: places := by
      intro member
      rcases List.mem_cons.mp member with equal | further
      · omega
      · have behind := apart _ further
        omega
    rw [if_neg kept]
    refine located index planned ?_
    rw [List.getElem?_set_ne (Ne.symm same)]
    exact found

theorem NodeStretch.enclose (kind : NodeKind) (error : Option Diagnostic) {hole openedAt : Nat}
    {link : Option Nat} {first : List Event}
    (stands : NodeStretch dead base first index before tree middle)
    (pieces : Pieces dead (base + first.length) middle stretch children after)
    (empty : stretch[hole]? = some .nothing) :
    NodeStretch dead base
      (first.modify index (Event.relink (some (base + first.length + hole))) ++
        (stretch.set hole (.start kind error none) ++ [.finish]))
      (first.length + hole) before
      (ofChildren kind error openedAt ((children ++ [(link, tree)]).map Prod.snd).reverse)
      after := by
  obtain ⟨present, -⟩ := List.getElem?_eq_some_iff.mp empty
  have inside : hole < (stretch.set hole (.start kind error none)).length := by
    simpa using present
  have relinked (outer : Option Nat) :
      (first.modify index (Event.relink (some (base + first.length + hole))) ++
        (stretch.set hole (.start kind error none) ++ [Event.finish])).modify
          (first.length + hole) (Event.relink outer) =
      first.modify index (Event.relink (some (base + first.length + hole))) ++
        (stretch.set hole (.start kind error outer) ++ [.finish]) := by
    have changed := modify_append_middle
      (first.modify index (Event.relink (some (base + first.length + hole))))
      _ [Event.finish] inside
      (Event.relink outer)
    rw [List.length_modify, List.set_eq_modify, List.modify_modify_eq] at changed
    rw [← List.append_assoc, ← List.append_assoc, List.set_eq_modify, changed,
      List.set_eq_modify]
    rfl
  have length : (first.modify index (Event.relink (some (base + first.length + hole))) ++
      (stretch.set hole (.start kind error none) ++ [Event.finish])).length =
      first.length + (stretch ++ [Event.finish]).length := by
    simp
  have shorter : (stretch ++ [Event.finish]).length = stretch.length + 1 := by simp
  constructor
  · omega
  · exact relinked none
  · intro events outer places around builder forsaken located beyond chain here
    rw [relinked] at located
    rw [length] at beyond ⊢
    have inner := located.right
    rw [List.length_modify] at inner
    have found : events[base + first.length + hole]? = some (.start kind error outer) :=
      inner.left hole _ (List.getElem?_set_self present)
    have apart := chain.le_of_mem beyond
    have linked : Chain events (some (base + first.length + hole))
        ((base + first.length + hole) :: places) ((kind, error) :: around) := by
      refine .start found (fun next isNext => ?_) chain
      have further := beyond next isNext
      omega
    obtain ⟨opened, ranFirst, emptied⟩ := stands.runs forsaken located.left
      (by rintro place ⟨rfl⟩; omega) linked here
    -- The start in the row has been hoisted: where it stood the row is as it was recorded.
    have row : Located opened (base + first.length) stretch :=
      inner.left.of_hoisted empty emptied fun place hoisted => by
        have behind := apart place hoisted
        omega
    have cursor : (((builder.pushAll ((kind, error) :: around)).adopt tree).moveTo middle).cursor =
        middle := rfl
    obtain ⟨filled, ran, kept⟩ :=
      pieces.runs (forsaken.of_emptied emptied (Nat.le_add_right ..)) row cursor rfl
    have closing : filled[base + first.length + stretch.length]? = some .finish := by
      have last : events[base + first.length + stretch.length]? = some .finish := by
        have stood := inner.last
        rwa [List.length_set] at stood
      have unhoisted : base + first.length + stretch.length ∉
          (base + first.length + hole) :: places := by
        intro member
        rcases List.mem_cons.mp member with equal | further
        · omega
        · have behind := apart _ further
          omega
      rw [kept.getElem?_eq (Nat.le_refl _), emptied _ (Nat.le_add_right ..),
        if_neg unhoisted, last]
    obtain ⟨passed, ranAll, keptAll⟩ := kept.snoc ran (step_finish _ closing)
    refine ⟨passed, ?_, ?_⟩
    · rw [runPlaces_add, ranFirst, ranAll, ofChildren_eq_of_ne_nil kind error openedAt
        (builder.pushAll around).offset (by simp),
        ← Builder.moveTo_adopt (builder.pushAll around), List.map_append]
      rfl
    · rw [← Nat.add_assoc]
      refine emptied.trans keptAll (Nat.le_add_right ..) fun place behind => ?_
      have other : place ≠ base + first.length + hole := by omega
      simp [other]

/-! ### Open nodes -/

variable (dead : Nat → Prop) (base place : Nat) (before : Cursor) in
/--
What is recorded in front of the children of an open node: the empty place of
its own event or, for a node opened around an earlier one, the stretch of that
one with a link to the place.
-/
inductive Lead :
    Nat → List Event → List (Option Nat × Tree) → Cursor → Prop where
  | plain (here : place = base) : Lead before.offset [.nothing] [] before
  | around {first : List Event} {index : Nat} {tree : Tree} {middle : Cursor} (openedAt : Nat)
      (stands : NodeStretch dead base first index before tree middle)
      (beyond : base + first.length ≤ place) :
      Lead openedAt (first.modify index (Event.relink (some place))) [(none, tree)] middle

/--
What has been recorded so far splits into one stretch for each open node: its
children, and what is in front of them.
-/
inductive Stacks (dead : Nat → Prop) (origin : Cursor) :
    List Trail.Frame → List Direct.Frame → List Event → Cursor → Prop where
  | bottom : Stacks dead origin [] [] [] origin
  | push {frames : List Trail.Frame} {stack : List Direct.Frame}
      {lower first inner : List Event} {before middle after : Cursor}
      {lead children : List (Option Nat × Tree)} {place openedAt : Nat}
      (below : Stacks dead origin frames stack lower before)
      (leads : Lead dead lower.length place before openedAt first lead middle)
      (pieces : Pieces dead (lower.length + first.length) middle inner children after) :
      Stacks dead origin
        (⟨place, (children ++ lead).map Prod.fst⟩ :: frames)
        (⟨openedAt, (children ++ lead).map Prod.snd⟩ :: stack)
        (lower ++ first ++ inner) after

variable {origin : Cursor} {frames : List Trail.Frame}
  {stack : List Direct.Frame} {recorded : List Event}

theorem Lead.mono {openedAt : Nat} (extends_ : ∀ place, dead place → wider place)
    (leads : Lead dead base place before openedAt stretch children after) :
    Lead wider base place before openedAt stretch children after := by
  cases leads with
  | plain here => exact .plain here
  | around openedAt stands beyond => exact .around openedAt (stands.mono extends_) beyond

theorem Stacks.mono (extends_ : ∀ place, dead place → wider place)
    (aligned : Stacks dead origin frames stack recorded after) :
    Stacks wider origin frames stack recorded after := by
  induction aligned with
  | bottom => exact .bottom
  | push below leads pieces ih => exact .push ih (leads.mono extends_) (pieces.mono extends_)

theorem Stacks.extend
    (aligned : Stacks dead origin (frame :: frames) (top :: stack) recorded before)
    (pieces : Pieces dead recorded.length before stretch children after) :
    Stacks dead origin
      ({ frame with children := children.map Prod.fst ++ frame.children } :: frames)
      ({ top with children := children.map Prod.snd ++ top.children } :: stack)
      (recorded ++ stretch) after := by
  cases aligned with
  | push below leads inside =>
    rw [List.length_append, List.length_append] at pieces
    have all := below.push leads (inside.append pieces)
    simpa using all

/--
Closing the innermost open node fills its empty place; what was recorded for
the node then stands for it in the node around it.
-/
theorem Stacks.close (kind : NodeKind) (error : Option Diagnostic)
    (aligned : Stacks dead origin (frame :: frames) (top :: stack) recorded after)
    (empty : recorded[frame.place]? = some .nothing) :
    ∃ lower inner index before,
      recorded.set frame.place (.start kind error none) ++ [.finish] = lower ++ inner ∧
      frame.place = lower.length + index ∧
      Stacks dead origin frames stack lower before ∧
      NodeStretch dead lower.length inner index before
        (ofChildren kind error top.openedAt top.children.reverse) after := by
  cases aligned with
  | @push _ _ lower _ inner before _ _ _ _ _ _ below leads pieces =>
    cases leads with
    | plain here =>
      subst here
      refine ⟨lower, .start kind error none :: inner ++ [.finish], 0, before, ?_,
        rfl, below, ?_⟩
      · simp
      · rw [List.append_nil]
        exact pieces.enclose kind error
    | @around first index tree _ openedAt stands beyond =>
      obtain ⟨hole, rfl⟩ := Nat.exists_eq_add_of_le beyond
      have length : (lower ++ first.modify index (Event.relink
          (some (lower.length + first.length + hole)))).length =
          lower.length + first.length := by
        simp only [List.length_append, List.length_modify]
      have innerEmpty : inner[hole]? = some .nothing := by
        rw [← empty, List.getElem?_append_right
          (Nat.le_trans (Nat.le_of_eq length) (Nat.le_add_right ..)), length,
          Nat.add_sub_cancel_left]
      rw [List.length_modify] at pieces
      refine ⟨lower, _, first.length + hole, before, ?_, Nat.add_assoc .., below,
        stands.enclose kind error pieces innerEmpty⟩
      rw [List.set_append_right _ _ (Nat.le_trans (Nat.le_of_eq length) (Nat.le_add_right ..))]
      simp

/-- If an open node is given up, what is in front of its children is left to the node around it. -/
theorem Lead.pieces {openedAt : Nat}
    (leads : Lead dead base place before openedAt stretch children after) :
    Pieces (fun hole => dead hole ∨ hole = place) base before stretch children after := by
  cases leads with
  | plain => exact .empty .nil
  | around openedAt stands beyond =>
    refine .node .nil (stands.mono fun _ => .inl) (by simp) ?_
    rintro hole ⟨rfl⟩
    exact ⟨.inr rfl, beyond⟩

theorem Stacks.giveUp
    (aligned : Stacks dead origin (frame :: frames) (top :: stack) recorded after) :
    ∃ lower inner children before,
      recorded = lower ++ inner ∧ frame.children = children.map Prod.fst ∧
      top.children = children.map Prod.snd ∧
      Stacks dead origin frames stack lower before ∧
      Pieces (fun place => dead place ∨ place = frame.place) lower.length before
        inner children after := by
  cases aligned with
  | @push _ _ lower first inner before _ _ lead children _ _ below leads pieces =>
    exact ⟨lower, first ++ inner, children ++ lead, before, List.append_assoc .., rfl, rfl,
      below, leads.pieces.append (pieces.mono fun _ => .inl)⟩

theorem Stacks.move {first back : List Event} (openedAt : Nat)
    (below : Stacks dead origin frames stack recorded before)
    (stands : NodeStretch dead recorded.length first index before tree middle)
    (pieces : Pieces dead (recorded ++ first).length middle back children after)
    (outer : Option Nat) (beyond : recorded.length + first.length ≤ place) :
    Stacks dead origin
      (⟨place, children.map Prod.fst ++ [none]⟩ :: frames)
      (⟨openedAt, children.map Prod.snd ++ [tree]⟩ :: stack)
      ((recorded ++ first.modify index (Event.relink outer) ++ back).modify
        (recorded.length + index) (Event.linkTo place)) after := by
  have inside : index < (first.modify index (Event.relink outer)).length := by
    rw [List.length_modify]
    exact stands.inside
  rw [Event.linkTo_eq_relink, modify_append_middle _ _ _ inside,
    List.modify_modify_eq, Event.relink_comp_relink]
  have behind : Pieces dead (recorded.length +
      (first.modify index (Event.relink (some place))).length) middle back children after := by
    rw [List.length_modify, ← List.length_append]
    exact pieces
  have moved := below.push (.around openedAt stands beyond) behind
  rw [List.map_append, List.map_append] at moved
  exact moved

theorem take_succ_map {α β : Type} (f : α → β) {row : List α} {chosen : α}
    (found : row[count]? = some chosen) :
    (row.map f).take (count + 1) = (row.take count).map f ++ [f chosen] := by
  rw [List.take_add_one, List.getElem?_map, found, List.map_take]
  rfl

theorem set_take_succ_map {α β : Type} (f : α → Option β) {row : List α} {chosen : α}
    (found : row[count]? = some chosen) :
    ((row.map f).take (count + 1)).set count none = (row.take count).map f ++ [none] := by
  have length : ((row.take count).map f).length = count := by
    simp [Nat.le_of_lt (List.getElem?_eq_some_iff.mp found).1]
  rw [take_succ_map f found, List.set_append_right _ _ (Nat.le_of_eq length), length,
    Nat.sub_self]
  rfl

/--
Opening a node around a finished child of the innermost open node takes the
child and those after it away and links the child to the place of the new node.
-/
theorem Stacks.openAround (openedAt : Nat)
    (aligned : Stacks dead origin (frame :: frames) (top :: stack) recorded after)
    (chosen : frame.children[count]? = some (some target))
    (beyond : recorded.length ≤ place) :
    Stacks dead origin
      (⟨place, (frame.children.take (count + 1)).set count none⟩ ::
        { frame with children := frame.children.drop (count + 1) } :: frames)
      (⟨openedAt, top.children.take (count + 1)⟩ ::
        { top with children := top.children.drop (count + 1) } :: stack)
      (recorded.modify target (Event.linkTo place)) after := by
  cases aligned with
  | @push _ _ lower around inner _ _ _ lead children _ _ below leads pieces =>
    have inRow : count < children.length := by
      refine Nat.lt_of_not_le fun behind => ?_
      rw [List.map_append, List.getElem?_append_right (by simpa using behind)] at chosen
      cases leads with
      | plain => simp at chosen
      | around => simp [List.getElem?_singleton] at chosen
    rw [List.getElem?_map, List.getElem?_append_left inRow, Option.map_eq_some_iff] at chosen
    obtain ⟨⟨_, tree⟩, found, rfl⟩ := chosen
    obtain ⟨front, first, back, index, outer, start, stop, rfl, rfl, earlier,
      stands, later⟩ := pieces.split found
    have length : (lower ++ around ++ front).length =
        lower.length + around.length + front.length := by
      simp only [List.length_append]
    have lengthFirst : ((lower ++ around ++ front) ++ first).length =
        lower.length + around.length + (front ++ first).length := by
      simp only [List.length_append, Nat.add_assoc]
    rw [← length] at stands
    rw [← lengthFirst] at later
    have reached : (lower ++ around ++ front).length + first.length ≤ place := by
      simp only [List.length_append, List.length_modify] at beyond ⊢
      omega
    have moved := (below.push leads earlier).move openedAt stands later outer reached
    rw [length] at moved
    have short : (children ++ lead).take (count + 1) = children.take (count + 1) :=
      List.take_append_of_le_length inRow
    have long : (children ++ lead).drop (count + 1) = children.drop (count + 1) ++ lead :=
      List.drop_append_of_le_length inRow
    rw [← List.map_take, ← List.map_take, ← List.map_drop, ← List.map_drop, short, long,
      List.map_take, List.map_take, set_take_succ_map Prod.fst found,
      take_succ_map Prod.snd found]
    simpa only [List.append_assoc] using moved

/-! ### Marks -/

theorem Stacks.length_eq (aligned : Stacks dead origin frames stack recorded after) :
    frames.length = stack.length := by
  induction aligned with
  | bottom => rfl
  | push below leads pieces ih => simp [ih]

/-- What the recorder holds and what the marks describe directly belong together. -/
structure Linked (dead : Nat → Prop) (tokens : List Token)
    (recorder : Trail.Recorder) (state : Direct.State) : Prop where
  aligned : Stacks dead ⟨tokens, 0⟩ recorder.frames state.stack
    recorder.events.toList ⟨state.tokens, state.offset⟩
  empty : ∀ place ∈ recorder.frames.map Trail.Frame.place,
    recorder.events[place]? = some .nothing ∧ ¬ dead place
  distinct : (recorder.frames.map Trail.Frame.place).Nodup
  forsaken : Forsaken dead 0 recorder.events
  rootless : state.root = none

theorem linked_init (tokens : List Token) : Linked (fun _ => False) tokens {} { tokens } where
  aligned := .bottom
  empty := by simp
  distinct := by simp
  forsaken := by simp [Forsaken]
  rootless := rfl

theorem getElem?_push_of_some {found : Event} (event : Event)
    (present : events[place]? = some found) : (events.push event)[place]? = some found := by
  obtain ⟨inside, rfl⟩ := Array.getElem?_eq_some_iff.mp present
  exact Array.getElem?_push_lt inside

namespace Linked

variable {tokens : List Token} {recorder : Trail.Recorder} {state : Direct.State}

theorem size_not_mem (linked : Linked dead tokens recorder state) :
    recorder.events.size ∉ recorder.frames.map Trail.Frame.place := by
  intro member
  have found := (linked.empty _ member).1
  simp at found

theorem not_dead_size (linked : Linked dead tokens recorder state) :
    ¬ dead recorder.events.size := by
  intro given
  have found := linked.forsaken _ (Nat.zero_le _) given
  simp at found

theorem start (linked : Linked dead tokens recorder state) :
    Linked dead tokens (recorder.record .start) (state.step .start) where
  aligned := by
    have opened := linked.aligned.push (.plain rfl) .nil
    simpa [Trail.Recorder.record, Direct.State.step] using opened
  empty := by
    intro place member
    rcases List.mem_cons.mp member with rfl | earlier
    · exact ⟨Array.getElem?_push_size, linked.not_dead_size⟩
    · obtain ⟨empty, alive⟩ := linked.empty place earlier
      exact ⟨getElem?_push_of_some _ empty, alive⟩
  distinct := List.nodup_cons.mpr ⟨linked.size_not_mem, linked.distinct⟩
  forsaken place _ given :=
    getElem?_push_of_some _ (linked.forsaken place (Nat.zero_le _) given)
  rootless := linked.rootless

theorem token (linked : Linked dead tokens recorder state) {next : Token}
    {rest : List Token} (more : state.tokens = next :: rest) (opened : recorder.frames ≠ []) :
    Linked dead tokens (recorder.record .token) (state.step .token) := by
  obtain ⟨events, frames⟩ := recorder
  obtain ⟨stack, root, _, offset⟩ := state
  subst more
  obtain ⟨aligned, empty, distinct, forsaken, rootless⟩ := linked
  cases frames with
  | nil => exact absurd rfl opened
  | cons frame frames =>
    cases stack with
    | nil => exact absurd aligned.length_eq (by simp)
    | cons top stack =>
      constructor
      · have taken : Pieces dead events.toList.length ⟨next :: rest, offset⟩
            ([] ++ [.token]) [(none, leaf next)] ⟨rest, next.span.stop⟩ :=
          .token .nil
        simpa [Trail.Recorder.record, Trail.Recorder.adopt,
          Direct.State.step, Direct.State.adopt] using aligned.extend taken
      · intro place member
        obtain ⟨found, alive⟩ := empty place member
        exact ⟨getElem?_push_of_some _ found, alive⟩
      · exact distinct
      · exact fun place beyond given => getElem?_push_of_some _ (forsaken place beyond given)
      · exact rootless

theorem enclosed_cases (linked : Linked dead tokens recorder state)
    (enclosed : 2 ≤ recorder.frames.length) :
    ∃ frame parent frames top up stack,
      recorder.frames = frame :: parent :: frames ∧
        state.stack = top :: up :: stack := by
  have same := linked.aligned.length_eq
  match recorder.frames, state.stack, enclosed, same with
  | frame :: parent :: frames, top :: up :: stack, _, _ =>
    exact ⟨frame, parent, frames, top, up, stack, rfl, rfl⟩

theorem getElem?_fill {filled : Nat} {found : Event} (event : Event)
    (present : events[place]? = some found) (other : place ≠ filled) :
    ((events.setIfInBounds filled event).push .finish)[place]? = some found := by
  refine getElem?_push_of_some _ ?_
  rw [Array.getElem?_setIfInBounds_ne (Ne.symm other)]
  exact present

theorem finish (linked : Linked dead tokens recorder state) (kind : NodeKind)
    (error : Option Diagnostic) (enclosed : 2 ≤ recorder.frames.length) :
    Linked dead tokens (recorder.record (.finish kind error))
      (state.step (.finish kind error)) := by
  obtain ⟨frame, parent, frames, top, up, stack, opened, stacked⟩ :=
    linked.enclosed_cases enclosed
  obtain ⟨events, _⟩ := recorder
  obtain ⟨_, root, left, offset⟩ := state
  subst opened stacked
  obtain ⟨aligned, empty, distinct, forsaken, rootless⟩ := linked
  have ownEmpty := empty frame.place (List.mem_cons_self ..)
  rw [← Array.getElem?_toList] at ownEmpty
  obtain ⟨lower, inner, index, before, text, place, below, stands⟩ :=
    aligned.close kind error ownEmpty.1
  obtain ⟨fresh, distinct⟩ := List.nodup_cons.mp distinct
  constructor
  · have piece : Pieces dead lower.length before
        ([] ++ inner.modify index (Event.relink none)) [(some frame.place, _)] _ :=
      .node .nil stands (by rintro other ⟨rfl⟩; exact place) (by simp)
    rw [List.nil_append, stands.unlinked] at piece
    have extended := below.extend piece
    rw [← text] at extended
    simpa [Trail.Recorder.record, Trail.Recorder.adopt, Direct.State.step,
      Direct.State.adopt] using extended
  · intro other member
    obtain ⟨found, alive⟩ := empty other (List.mem_cons_of_mem _ member)
    exact ⟨getElem?_fill _ found fun same => fresh (same ▸ member), alive⟩
  · exact distinct
  · exact fun other beyond given => getElem?_fill _ (forsaken other beyond given)
      fun same => ownEmpty.2 (same ▸ given)
  · exact rootless

theorem abandon (linked : Linked dead tokens recorder state)
    (enclosed : 2 ≤ recorder.frames.length) :
    ∃ wider, Linked wider tokens (recorder.record .abandon) (state.step .abandon) := by
  obtain ⟨frame, parent, frames, top, up, stack, opened, stacked⟩ :=
    linked.enclosed_cases enclosed
  obtain ⟨events, _⟩ := recorder
  obtain ⟨_, root, left, offset⟩ := state
  subst opened stacked
  obtain ⟨aligned, empty, distinct, forsaken, rootless⟩ := linked
  obtain ⟨fresh, distinct⟩ := List.nodup_cons.mp distinct
  obtain ⟨lower, inner, children, before, text, fst, snd, below, pieces⟩ :=
    aligned.giveUp
  refine ⟨fun place => dead place ∨ place = frame.place, ?_, ?_, distinct, ?_,
    rootless⟩
  · have extended := (below.mono fun _ => .inl).extend pieces
    rw [← text, ← fst, ← snd] at extended
    exact extended
  · intro place member
    obtain ⟨found, alive⟩ := empty place (List.mem_cons_of_mem _ member)
    refine ⟨found, ?_⟩
    rintro (given | rfl)
    · exact alive given
    · exact fresh member
  · rintro place beyond (given | rfl)
    · exact forsaken place beyond given
    · exact (empty frame.place (List.mem_cons_self ..)).1

theorem getElem?_link (target hole : Nat) (present : events[place]? = some .nothing) :
    ((events.modify target (Event.linkTo hole)).push .nothing)[place]? =
      some .nothing := by
  refine getElem?_push_of_some _ ?_
  rw [Array.getElem?_modify, present]
  split <;> rfl

theorem precede (linked : Linked dead tokens recorder state) {after : Nat}
    {frames : List Trail.Frame} (opened : recorder.frames = frame :: frames)
    (chosen : frame.children[after]? = some (some target)) :
    Linked dead tokens (recorder.record (.precede after))
      (state.step (.precede after)) := by
  obtain ⟨top, stack, stacked⟩ : ∃ top stack, state.stack = top :: stack := by
    have same := linked.aligned.length_eq
    rw [opened] at same
    match state.stack, same with
    | top :: stack, _ => exact ⟨top, stack, rfl⟩
  have size := linked.size_not_mem
  have sizeAlive := linked.not_dead_size
  obtain ⟨events, _⟩ := recorder
  obtain ⟨_, root, left, offset⟩ := state
  subst opened stacked
  obtain ⟨aligned, empty, distinct, forsaken, rootless⟩ := linked
  have recorded : Trail.Recorder.record ⟨events, frame :: frames⟩ (.precede after) =
      ⟨(events.modify target (Event.linkTo events.size)).push .nothing,
        ⟨events.size, (frame.children.take (after + 1)).set after none⟩ ::
          { frame with children := frame.children.drop (after + 1) } :: frames⟩ := by
    simp only [Trail.Recorder.record, chosen]
  rw [recorded]
  constructor
  · have moved := aligned.openAround offset chosen (Nat.le_of_eq events.length_toList)
    have hole : Pieces dead
        (events.toList.modify target (Event.linkTo events.size)).length
        ⟨left, offset⟩ ([] ++ [.nothing]) [] ⟨left, offset⟩ := .empty .nil
    simpa [Direct.State.step] using moved.extend hole
  · intro place member
    rcases List.mem_cons.mp member with rfl | earlier
    · refine ⟨?_, sizeAlive⟩
      rw [Array.getElem?_push, Array.size_modify, if_pos rfl]
    · obtain ⟨found, alive⟩ := empty place earlier
      exact ⟨getElem?_link target events.size found, alive⟩
  · exact List.nodup_cons.mpr ⟨size, distinct⟩
  · exact fun place beyond given => getElem?_link target events.size (forsaken place beyond given)
  · exact rootless

/--
Closing the only open node yields its tree, from the events as directly from
the marks.
-/
theorem build_finish (linked : Linked dead tokens recorder state) (kind : NodeKind)
    (error : Option Diagnostic) (last : recorder.frames = [frame]) :
    ∃ top, state.stack = [top] ∧
      build tokens (recorder.record (.finish kind error)).events =
        appendLeaves state.tokens
          (ofChildren kind error top.openedAt top.children.reverse) := by
  obtain ⟨top, stacked⟩ : ∃ top, state.stack = [top] := by
    have same := linked.aligned.length_eq
    rw [last] at same
    match state.stack, same with
    | [top], _ => exact ⟨top, rfl⟩
  refine ⟨top, stacked, ?_⟩
  obtain ⟨events, _⟩ := recorder
  obtain ⟨_, root, left, offset⟩ := state
  subst last stacked
  obtain ⟨aligned, empty, distinct, forsaken, rootless⟩ := linked
  have ownEmpty := empty frame.place (List.mem_cons_self ..)
  rw [← Array.getElem?_toList] at ownEmpty
  obtain ⟨lower, inner, index, before, text, place, below, stands⟩ :=
    aligned.close kind error ownEmpty.1
  cases below with
  | bottom =>
    generalize filled : (events.setIfInBounds frame.place
      _).push .finish = done
    have equal : done.toList = inner := by
      rw [← filled, Array.toList_push, Array.toList_setIfInBounds]
      exact text
    have stillForsaken : Forsaken dead 0 done := by
      intro other beyond given
      rw [← filled]
      exact getElem?_fill _ (forsaken other beyond given)
        fun same => ownEmpty.2 (same ▸ given)
    have located : Located done 0 inner := by
      intro at_ planned found
      rw [← equal, Array.getElem?_toList] at found
      rw [Nat.zero_add, found]
    rw [← stands.unlinked] at located
    have fresh : Builder.cursor { tokens } = ⟨tokens, 0⟩ := rfl
    obtain ⟨passed, ran, -⟩ :=
      stands.runs stillForsaken located (by simp) .unlinked fresh
    have recorded : (Trail.Recorder.record ⟨events, [frame]⟩
        (.finish kind error)).events = done := filled
    have size : done.size = inner.length := by rw [← equal, Array.length_toList]
    rw [runPlaces, List.length_nil] at ran
    rw [recorded, build, size, ran]
    rfl

end Linked

end Tree

end Offside
