import Offside.Tree.Trail

/-!
# From events to a tree

Events are read from left to right with a stack of open nodes.  Where a node is
opened, the nodes around it are opened first.  Their events come later and are
emptied, so that nothing is left to do where they stand.  A node spans its
children; a node without children is empty at the offset where it was opened.
The diagnostic of a node gets the node's span.
-/

namespace Offside.Tree

/-- A node that is open while a tree is built. -/
structure OpenNode where
  kind : NodeKind
  error : Option Diagnostic
  /-- The offset where the node was opened. -/
  openedAt : Nat
  /-- The children so far, last first. -/
  children : List Tree

/-- The span of a row of children, or an empty one at the offset. -/
def spanOf (openedAt : Nat) (children : List Tree) : Span :=
  match children.head?, children.getLast? with
  | some first, some last => ⟨first.span.start, last.span.stop⟩
  | _, _ => Span.empty openedAt

/-- A node made of its children; its diagnostic gets its span. -/
def ofChildren (kind : NodeKind) (error : Option Diagnostic) (openedAt : Nat)
    (children : List Tree) : Tree :=
  let span := spanOf openedAt children
  node kind span (error.map fun diagnostic => { diagnostic with span }) children

def OpenNode.close (opened : OpenNode) : Tree :=
  ofChildren opened.kind opened.error opened.openedAt opened.children.reverse

/-- The state of building: what is open, innermost first, and what is left of the tokens. -/
structure Builder where
  stack : List OpenNode := []
  root : Option Tree := none
  tokens : List Token
  /-- The end of the last token taken. -/
  offset : Nat := 0

namespace Builder

/-- Add a finished tree to the innermost open node; without one a node becomes the root. -/
def adopt (builder : Builder) (child : Tree) : Builder :=
  match builder.stack with
  | [] => if child.isNode then { builder with root := some child } else builder
  | parent :: rest =>
    { builder with stack := { parent with children := child :: parent.children } :: rest }

def close (builder : Builder) : Builder :=
  match builder.stack with
  | [] => builder
  | opened :: rest => adopt { builder with stack := rest } opened.close

def push (builder : Builder) (kind : NodeKind) (error : Option Diagnostic) : Builder :=
  { builder with stack := ⟨kind, error, builder.offset, []⟩ :: builder.stack }

def take (builder : Builder) : Builder :=
  match builder.tokens with
  | [] => builder
  | token :: rest => { builder with tokens := rest, offset := token.span.stop }.adopt (leaf token)

def closeAll : (count : Nat) → Builder → Builder
  | 0, builder => builder
  | count + 1, builder => closeAll count builder.close

end Builder

/-- The nodes around a node, innermost first, and the events without those that open them. -/
def hoist : (bound : Nat) → (link : Option Nat) → Array Event →
    List (NodeKind × Option Diagnostic) × Array Event
  | 0, _, events => ([], events)
  | _, none, events => ([], events)
  | bound + 1, some place, events =>
    let emptied := events.setIfInBounds place .nothing
    match events[place]? with
    | some (.start kind error outer) =>
      let (around, rest) := hoist bound outer emptied
      ((kind, error) :: around, rest)
    | _ => ([], emptied)

def Builder.step : Array Event × Builder → (place : Nat) → Array Event × Builder
  | (events, builder), place =>
    let emptied := events.setIfInBounds place .nothing
    match events[place]? with
    | some (.start kind error outer) =>
      let (around, rest) := hoist events.size outer emptied
      (rest, ((kind, error) :: around).foldr
        (fun (kind, error) builder => builder.push kind error) builder)
    | some .token => (emptied, builder.take)
    | some .finish => (emptied, builder.close)
    | _ => (emptied, builder)

def appendLeaves (tokens : List Token) : Tree → Tree
  | leaf token => leaf token
  | node kind span error children =>
    if tokens.isEmpty then node kind span error children
    else
      let all := children ++ tokens.map leaf
      node kind (spanOf span.start all) error all

/-- The tree that events describe; tokens that they never take go to the root. -/
def build (tokens : List Token) (events : Array Event) : Tree :=
  let ran := ((List.range' 0 events.size).foldl Builder.step (events, { tokens })).2
  let closed := Builder.closeAll ran.stack.length ran
  let root := closed.root.getD (node .wholeModule (Span.empty 0) none [])
  appendLeaves closed.tokens root

def ofTrail (tokens : List Token) (trail : List Mark) : Tree :=
  build tokens (Trail.events trail)

end Offside.Tree
