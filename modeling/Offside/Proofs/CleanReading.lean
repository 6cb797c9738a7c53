import Mathlib.Data.List.ReduceOption
import Offside.Proofs.Twins

/-!
# Reading without faults

The shape of a tree is what is left of it without trivia and diagnostics.  A
text in which nothing is malformed can be read without a trail: the machine
below keeps the shapes in the open node, and gives up where the full machine
would report something.
-/

namespace Offside

/-- A tree without trivia, whose nodes carry neither places nor diagnostics. -/
inductive Shape where
  | leaf (token : Token)
  | node (kind : NodeKind) (children : List Shape)

/-- The children of an open node, last first; trivia leaves no shape. -/
abbrev Shape.Row := List (Option Shape)

def Shape.Row.shapes (row : Shape.Row) : List Shape :=
  row.reduceOption.reverse

namespace Shape.Row

@[simp]
theorem shapes_nil : shapes [] = [] :=
  rfl

@[simp]
theorem shapes_cons_some (shape : Shape) (row : Row) :
    shapes (some shape :: row) = shapes row ++ [shape] := by
  simp [shapes]

@[simp]
theorem shapes_append (new old : Row) : shapes (new ++ old) = shapes old ++ shapes new := by
  simp [shapes, List.reduceOption_append]

@[simp]
theorem shapes_replicate_none (count : Nat) : shapes (List.replicate count none) = [] := by
  simp [shapes]

end Shape.Row

namespace Tree

mutual

def shape? : Tree → Option Shape
  | leaf token => if token.kind.isTrivia then none else some (.leaf token)
  | node kind _ _ children => some (.node kind (shapes children))

def shapes : List Tree → List Shape
  | [] => []
  | tree :: rest => tree.shape?.toList ++ shapes rest

end

theorem shapes_eq_filterMap (trees : List Tree) : shapes trees = trees.filterMap shape? := by
  induction trees with
  | nil => rfl
  | cons tree rest ih =>
    rw [shapes, ih, List.filterMap_cons]
    cases tree.shape? <;> rfl

@[simp]
theorem shapes_append (left right : List Tree) :
    shapes (left ++ right) = shapes left ++ shapes right := by
  simp only [shapes_eq_filterMap, List.filterMap_append]

theorem shapes_reverse (trees : List Tree) :
    shapes trees.reverse = Shape.Row.shapes (trees.map shape?) := by
  simp [shapes_eq_filterMap, Shape.Row.shapes, List.reduceOption]

theorem eq_leaf_of_shape? {tree : Tree} {token : Token}
    (same : tree.shape? = some (.leaf token)) : tree = leaf token := by
  cases tree with
  | leaf other =>
    rw [shape?] at same
    split at same
    · cases same
    · cases same
      rfl
  | node kind span error children => cases same

theorem shape?_ofChildren (kind : NodeKind) (error : Option Diagnostic) (openedAt : Nat)
    (children : List Tree) :
    (ofChildren kind error openedAt children.reverse).shape? =
      some (.node kind (Shape.Row.shapes (children.map shape?))) := by
  rw [ofChildren, shape?, shapes_reverse]

end Tree

namespace Grammar

/-- What changes while a text is read in which nothing is malformed. -/
structure Reading extends Bearings where
  /-- The tokens that have not been taken. -/
  ahead : List Lexeme
  /-- The children of the open node. -/
  row : Shape.Row
  /-- Every name of a module that was closed is a single token. -/
  neat : Bool

namespace Reading

def peek (reading : Reading) (ahead : Nat) : Sight :=
  match reading.ahead[ahead]? with
  | some lexeme => Sight.ofToken lexeme.token
  | none => ⟨.eof, ""⟩

def sighting (setting : Setting) (reading : Reading) : Found :=
  State.foundOf setting
    ((reading.ahead.head?.map Lexeme.token).getD (.virtual .eof setting.sourceLength))

def isHarmless (trivia : List Token) : Bool :=
  trivia.all fun token => (State.triviaCause? token.kind).isNone

/-- Take the trivia in front of the token ahead, unless some of it is to be reported. -/
def takeTrivia? (reading : Reading) : Option Reading :=
  match reading.ahead with
  | [] => some reading
  | lexeme :: rest =>
    if isHarmless lexeme.trivia then
      some { reading with
        ahead := { lexeme with trivia := [] } :: rest
        row := List.replicate lexeme.trivia.length none ++ reading.row }
    else none

/-- Take the token ahead, which has no trivia in front of it. -/
def takeToken (reading : Reading) : Reading :=
  match reading.ahead with
  | [] => reading
  | lexeme :: rest =>
    { reading with
      ahead := rest
      row := some (.leaf lexeme.token) :: reading.row
      position := reading.position + 1
      openBrackets := State.bracketsAfter lexeme.token.kind reading.openBrackets }

def bump? (reading : Reading) : Option Reading :=
  reading.takeTrivia?.map takeToken

/-- Declare a fixity; the answer says whether it contradicts an earlier one. -/
def declare (setting : Setting) (reading : Reading) (space : Namespace) (operator : String)
    (fixity : Fixity) : Bool × Reading :=
  match reading.declared.stored? space operator with
  | some previous => (previous ≠ fixity, reading)
  | none =>
    (false,
      { reading with
        declared := reading.declared.insert space operator fixity
        operators :=
          if setting.declaresInOrder then reading.operators.insert space operator fixity
          else reading.operators })

/-- The node that was open is closed in the node around it. -/
def close (inner : Reading) (kind : NodeKind) (outer : Shape.Row) : Reading :=
  { inner with
    row := some (.node kind inner.row.shapes) :: outer
    neat := inner.neat && (kind ≠ .moduleName || inner.row.length = 1) }

end Reading

/-- Run the rounds of a loop until one says that it is done, or the bound is reached. -/
def iterate? {σ : Type} (round : σ → Reading → Option (ForInStep σ × Reading)) :
    (bound : Nat) → σ → Reading → Option (σ × Reading)
  | 0, value, reading => some (value, reading)
  | bound + 1, value, reading =>
    (round value reading).bind fun
      | (.done value, reading) => some (value, reading)
      | (.yield value, reading) => iterate? round bound value reading

/-- What a text is read with: its setting, and what the rules do that are called. -/
structure Reader where
  setting : Setting
  rules : Rule → Reading → Option (Bool × Reading)

def Script.read? (reader : Reader) {α : Type} : Script α → Reading → Option (α × Reading)
  | .result value, reading => some (value, reading)
  | .andThen first next, reading =>
    (first.read? reader reading).bind fun (value, reading) =>
      (next value).read? reader reading
  | .peek ahead, reading => some (reading.peek ahead, reading)
  | .search wanted stops, reading =>
    some (State.searchFrom wanted stops 0 reading.ahead, reading)
  | .position, reading => some (reading.position, reading)
  | .insideBrackets, reading => some (0 < reading.openBrackets, reading)
  | .sighting, reading => some (reading.sighting reader.setting, reading)
  | .bump, reading => reading.bump?.map ((), ·)
  | .report _ _, _ => none
  | .fault _ _ _, _ => none
  | .blame _ _, _ => none
  | .node body, reading =>
    reading.takeTrivia?.bind fun outer =>
      (body.read? reader { outer with row := [] }).map fun
        | (some kind, inner) => (true, inner.close kind outer.row)
        | (none, inner) => (false, { inner with row := inner.row ++ outer.row })
  | .wrap kind body, reading =>
    (body.read? reader { reading with row := reading.row.take 1 }).map fun
      | ((), inner) => ((), inner.close kind (reading.row.drop 1))
  | .deepen, reading =>
    if reading.depth < maxDepth then
      some (true, { reading with depth := reading.depth + 1 })
    else some (false, reading)
  | .leave, reading => some ((), { reading with depth := reading.depth - 1 })
  | .loop start round, reading =>
    iterate? (fun value reading => (round value).read? reader reading)
      reader.setting.rounds start reading
  | .call rule, reading => reader.rules rule reading
  | .lookup space operator, reading => some (reading.operators.get? space operator, reading)
  | .reportsUnknown, reading => some (reader.setting.reportsUnknown, reading)
  | .declare space operator fixity, reading =>
    some (reading.declare reader.setting space operator fixity)
  | .forgetBrackets, reading => some ((), { reading with openBrackets := 0 })
  | .poll, reading =>
    some (reader.setting.isCancelled reading.polls, { reading with polls := reading.polls + 1 })

theorem Script.read?_bind {α β : Type} {reader : Reader} (first : Script α)
    (next : α → Script β) (reading : Reading) :
    (first >>= next).read? reader reading =
      (first.read? reader reading).bind fun outcome =>
        (next outcome.1).read? reader outcome.2 := by
  rfl

/-- Run a rule as long as there is nothing to report; a call beyond the bound is reported. -/
def readRule? (setting : Setting) (scripts : Rule → Script Bool) :
    (bound : Nat) → Rule → Reading → Option (Bool × Reading)
  | 0, _, _ => none
  | bound + 1, rule, reading =>
    (scripts rule).read? ⟨setting, readRule? setting scripts bound⟩ reading

/-- Reads by the rules of the grammar, with so many calls inside each other. -/
@[reducible]
def Reader.upTo (setting : Setting) (bound : Nat) : Reader :=
  ⟨setting, readRule? setting scriptOf bound⟩

end Grammar

end Offside
