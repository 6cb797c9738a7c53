import Offside.Tree.Basic

/-!
# Trails

Reading a text leaves a trail of marks: a node is opened, the next token is
taken, the open node is closed.  Only when a node is closed is its kind known.
A node may also be opened around something that has been closed already, as
the left operand of an operator is known before the operator is seen.

A trail is turned into events, in which every node is opened with its kind
known and with a link to the node opened around it, if there is one.  Events
can be turned into a tree in one pass.
-/

namespace Offside

/-- One step of reading. -/
inductive Mark where
  /-- Open a node. -/
  | start
  /-- Take the next token into the open node. -/
  | token
  /-- Close the open node, whose kind is now known. -/
  | finish (kind : NodeKind) (error : Option Diagnostic)
  /-- Give the open node up; what it holds goes to the node around it. -/
  | abandon
  /--
  Open a node around a finished child of the open node and the `after`
  children that follow it.
  -/
  | precede (after : Nat)
deriving DecidableEq, Repr

/-- One step of building a tree. -/
inductive Event where
  /-- Open a node, but first the node around it, which the event at the place `outer` opens. -/
  | start (kind : NodeKind) (error : Option Diagnostic) (outer : Option Nat)
  /-- Take the next token. -/
  | token
  /-- Close the node opened last. -/
  | finish
  /-- Nothing: a node that was given up, or has been opened already. -/
  | nothing
deriving DecidableEq, Repr

namespace Event

def linkTo (place : Nat) : Event → Event
  | start kind error _ => start kind error (some place)
  | event => event

end Event

namespace Trail

/-- A node that is open while a trail is recorded. -/
structure Frame where
  /-- The place of the event that will open the node. -/
  place : Nat
  /--
  The children so far, last first: the place of a node, or nothing for a token
  and for a node that another one has been opened around.
  -/
  children : List (Option Nat)

/-- What has been recorded of a trail: its events, and the open nodes, innermost first. -/
structure Recorder where
  events : Array Event := #[]
  frames : List Frame := []

namespace Recorder

def adopt (child : Option Nat) : List Frame → List Frame
  | [] => []
  | frame :: rest => { frame with children := child :: frame.children } :: rest

def record (recorder : Recorder) : Mark → Recorder
  | .start =>
    let place := recorder.events.size
    { events := recorder.events.push .nothing
      frames := ⟨place, []⟩ :: recorder.frames }
  | .token =>
    { events := recorder.events.push .token, frames := adopt none recorder.frames }
  | .finish kind error =>
    match recorder.frames with
    | [] => recorder
    | frame :: rest =>
      { events :=
          (recorder.events.setIfInBounds frame.place (.start kind error none)).push .finish
        frames := adopt (some frame.place) rest }
  | .abandon =>
    match recorder.frames with
    | [] => recorder
    | frame :: rest =>
      { recorder with
        frames :=
          match rest with
          | [] => []
          | parent :: rest =>
            { parent with children := frame.children ++ parent.children } :: rest }
  | .precede after =>
    let place := recorder.events.size
    match recorder.frames with
    | [] => recorder
    | frame :: rest =>
      let events :=
        match frame.children[after]? with
        | some (some target) => recorder.events.modify target (Event.linkTo place)
        | _ => recorder.events
      { events := events.push .nothing
        frames :=
          ⟨place, (frame.children.take (after + 1)).set after none⟩ ::
            { frame with children := frame.children.drop (after + 1) } :: rest }

end Recorder

def events (trail : List Mark) : Array Event :=
  (trail.foldl Recorder.record {}).events

end Trail

end Offside
