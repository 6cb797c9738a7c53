import Offside.Proofs.Spelling

/-!
# From stage to stage

A stage is what can be known of a reading without places: the words ahead, and
sketches of what has been put into the open node since some point.  A script
carries readings from one stage to another if every reading at the first stage
becomes one at the second, provided that enough levels of nesting are left;
with fewer levels the reading fails.  So each fact of this form says exactly
how many levels a script needs.
-/

namespace Offside

namespace Shape

mutual

/-- The sketch of a shape: places are forgotten, and there is nothing to report. -/
def sketch : Shape → Sketch
  | leaf token => .leaf token.kind token.text
  | node kind children => .node kind none (sketches children)

def sketches : List Shape → List Sketch
  | [] => []
  | shape :: rest => shape.sketch :: sketches rest

end

theorem sketches_append (left right : List Shape) :
    sketches (left ++ right) = sketches left ++ sketches right := by
  induction left with
  | nil => rfl
  | cons shape rest ih => rw [List.cons_append, sketches, ih, sketches, List.cons_append]

theorem sketches_push (shape : Shape) (count : Nat) (row : Row) :
    sketches (Row.shapes (some shape :: (List.replicate count none ++ row))) =
      sketches row.shapes ++ [shape.sketch] := by
  rw [Row.shapes_cons_some, Row.shapes_append, Row.shapes_replicate_none, List.append_nil,
    sketches_append]
  rfl

end Shape

namespace Grammar

/-- The words ahead, and sketches of what has been added to the open node. -/
structure Stage where
  ahead : List Sight
  done : List Sketch

/-- The words ahead of the reading, with nothing to report between them, and the table in force. -/
structure Reading.Faces (reading : Reading) (table : OperatorTable) (words : List Sight) :
    Prop where
  operators : reading.operators = table
  ahead : reading.ahead.map (fun lexeme => Sight.ofToken lexeme.token) = words
  harmless : ∀ lexeme ∈ reading.ahead, Reading.isHarmless lexeme.trivia = true

/--
The reading is at the stage, with the row `base` in the open node before the
stage counts.  What came last has a shape: trivia is taken with what follows.
-/
structure Reading.IsAt (reading : Reading) (table : OperatorTable) (stage : Stage)
    (base : Shape.Row) : Prop where
  faces : reading.Faces table stage.ahead
  row : ∃ new : Shape.Row, reading.row = new ++ base ∧ new.head? ≠ some none ∧
    Shape.sketches new.shapes = stage.done

variable {α β : Type} {reading : Reading} {table : OperatorTable} {stage : Stage} {base : Shape.Row}
  {words : List Sight} {value : α}

theorem Reading.IsAt.atDepth (isAt : reading.IsAt table stage base) {depth : Nat} :
    { reading with depth := depth }.IsAt table stage base :=
  ⟨⟨isAt.faces.operators, isAt.faces.ahead, isAt.faces.harmless⟩, isAt.row⟩

theorem Reading.Faces.open (faces : reading.Faces table words) :
    { reading with row := [] }.IsAt table ⟨words, []⟩ [] :=
  ⟨⟨faces.operators, faces.ahead, faces.harmless⟩, [], rfl, nofun, rfl⟩

theorem Reading.Faces.close (faces : reading.Faces table words) {kind : NodeKind}
    {outer : Shape.Row} : (reading.close kind outer).Faces table words where
  operators := faces.operators
  ahead := faces.ahead
  harmless := faces.harmless

/-- What a text is read with, and the fixities in force. -/
structure Ground where
  setting : Setting
  table : OperatorTable

/--
The script answers `value` and moves readings from one stage to the other while
the table is in force, with at most `calls` rules called inside each other.  It
needs `need` levels of nesting, and leaves `left` of those entered before.
-/
structure Moves {α : Type} (ground : Ground) (calls left : Nat)
    (script : Script α) (value : α) (need : Nat) (source target : Stage) : Prop where
  shrinks : target.ahead.length ≤ source.ahead.length
  reads : ∀ bound reading base, calls ≤ bound → reading.IsAt ground.table source base →
    source.ahead.length < ground.setting.rounds → reading.depth + need ≤ maxDepth →
    ∃ next, script.read? (.upTo ground.setting bound) reading = some (value, next) ∧
      next.IsAt ground.table target base ∧ next.depth = reading.depth - left ∧
      next.position + target.ahead.length = reading.position + source.ahead.length
  fails : ∀ bound reading base, calls ≤ bound → reading.IsAt ground.table source base →
    source.ahead.length < ground.setting.rounds → reading.depth ≤ maxDepth →
    maxDepth < reading.depth + need →
    script.read? (.upTo ground.setting bound) reading = none

theorem Moves.of_need {ground : Ground} {calls left need other : Nat} {script : Script α}
    {source target : Stage} (moves : Moves ground calls left script value need source target)
    (same : need = other) : Moves ground calls left script value other source target :=
  same ▸ moves

abbrev Carries {α : Type} (ground : Ground) (calls : Nat) (script : Script α) (value : α)
    (need : Nat) (source target : Stage) : Prop :=
  Moves ground calls 0 script value need source target

namespace Carries

variable {ground : Ground} {calls left need : Nat} {source target : Stage}

/-! ### One script after the other -/

variable {script first : Script α} {middle : Stage} {next : α → Script β} {result : β}

theorem mono {more : Nat} (carries : Carries ground calls script value need source target)
    (le : calls ≤ more) : Carries ground more script value need source target where
  shrinks := carries.shrinks
  reads bound reading base enough := carries.reads bound reading base (le.trans enough)
  fails bound reading base enough := carries.fails bound reading base (le.trans enough)

theorem bind {further : Nat} (head : Carries ground calls first value need source middle)
    (tail : Moves ground calls left (next value) result further middle target) :
    Moves ground calls left (first >>= next) result (max need further) source target where
  shrinks := tail.shrinks.trans head.shrinks
  reads bound reading base enough isAt rounds deep := by
    obtain ⟨after, read, isAfter, depth, position⟩ :=
      head.reads bound reading base enough isAt rounds (by omega)
    obtain ⟨last, readLast, isLast, depthLast, positionLast⟩ :=
      tail.reads bound after base enough isAfter (head.shrinks.trans_lt rounds) (by omega)
    refine ⟨last, ?_, isLast, by rw [depthLast, depth]; rfl, positionLast.trans position⟩
    rw [Script.read?_bind, read]
    exact readLast
  fails bound reading base enough isAt rounds within deep := by
    rw [Script.read?_bind]
    by_cases fits : reading.depth + need ≤ maxDepth
    · obtain ⟨after, read, isAfter, depth, -⟩ :=
        head.reads bound reading base enough isAt rounds fits
      rw [read]
      exact tail.fails bound after base enough isAfter (head.shrinks.trans_lt rounds)
        (depth ▸ within) (by omega)
    · rw [head.fails bound reading base enough isAt rounds within (by omega)]
      rfl

theorem after (head : Carries ground calls first value 0 source middle)
    (tail : Moves ground calls left (next value) result need middle target) :
    Moves ground calls left (first >>= next) result need source target :=
  (bind head tail).of_need (Nat.zero_max need)

theorem before (head : Carries ground calls first value need source middle)
    (tail : Moves ground calls left (next value) result 0 middle target) :
    Moves ground calls left (first >>= next) result need source target :=
  (bind head tail).of_need (Nat.max_zero need)

theorem of_reads (shrinks : target.ahead.length ≤ source.ahead.length)
    (reads : ∀ bound reading base, calls ≤ bound → reading.IsAt ground.table source base →
      ∃ next,
        script.read? (.upTo ground.setting bound) reading = some (value, next) ∧
        next.IsAt ground.table target base ∧ next.depth = reading.depth ∧
        next.position + target.ahead.length = reading.position + source.ahead.length) :
    Carries ground calls script value 0 source target where
  shrinks := shrinks
  reads bound reading base enough isAt _ _ := reads bound reading base enough isAt
  fails _ _ _ _ _ _ within deep := absurd deep (Nat.not_lt.mpr within)

theorem pure (value : α) (stage : Stage) :
    Carries ground calls (Pure.pure value) value 0 stage stage :=
  of_reads le_rfl fun _ reading _ _ isAt => ⟨reading, rfl, isAt, rfl, rfl⟩

theorem answer (head : Moves ground calls left first value need source target) (known : β) :
    Moves ground calls left (first >>= fun _ => Pure.pure known) known need source target where
  shrinks := head.shrinks
  reads bound reading base enough isAt rounds deep := by
    obtain ⟨after, read, isAfter⟩ := head.reads bound reading base enough isAt rounds deep
    exact ⟨after, by rw [Script.read?_bind, read]; rfl, isAfter⟩
  fails bound reading base enough isAt rounds within deep := by
    rw [Script.read?_bind, head.fails bound reading base enough isAt rounds within deep]
    rfl

theorem leave : Moves ground calls 1 .leave () 0 source source where
  shrinks := le_rfl
  reads _ reading _ _ isAt _ _ := ⟨{ reading with depth := reading.depth - 1 }, rfl, isAt.atDepth,
    rfl, rfl⟩
  fails _ _ _ _ _ _ within deep := absurd deep (Nat.not_lt.mpr within)

end Carries

/-! ### Looking ahead -/

/-- One round of a loop that goes on as long as the test holds. -/
def whileRound (test : Script Bool) (body : Script Unit) (_ : Unit) : Script (ForInStep Unit) := do
  if (← test) then
    body
    pure (.yield ())
  else pure (.done ())

/-- One round of a loop over items with separators between them. -/
def separatedRound (separator : TokenKind) (item : Script Unit) (_ : Unit) :
    Script (ForInStep Unit) := do
  item
  if (← eat separator) then pure (.yield ()) else pure (.done ())

/-- A word ahead; behind the last one there is only the end of the text. -/
def sightAt (ahead : List Sight) (index : Nat) : Sight :=
  ahead[index]?.getD ⟨.eof, ""⟩

def frontKind (ahead : List Sight) : TokenKind :=
  (sightAt ahead 0).kind

/-- The answer of a script that only looks at the words ahead. -/
def Script.glance? (ahead : List Sight) {α : Type} : Script α → Option α
  | .result value => some value
  | .andThen first next => (first.glance? ahead).bind fun value => (next value).glance? ahead
  | .peek index => some (sightAt ahead index)
  | _ => none

theorem Script.glance?_bind {α β : Type} (ahead : List Sight) (first : Script α)
    (next : α → Script β) :
    (first >>= next).glance? ahead =
      (first.glance? ahead).bind fun value => (next value).glance? ahead :=
  rfl

theorem Reading.IsAt.peek (isAt : reading.IsAt table stage base) (index : Nat) :
    reading.peek index = sightAt stage.ahead index := by
  rw [Reading.peek, sightAt, ← isAt.faces.ahead, List.getElem?_map]
  cases reading.ahead[index]? <;> rfl

theorem Script.read?_of_glance? {α : Type} {reader : Reader} {ahead : List Sight}
    (peeks : ∀ index, reading.peek index = sightAt ahead index) (script : Script α) {value : α}
    (glanced : script.glance? ahead = some value) :
    script.read? reader reading = some (value, reading) := by
  induction script with
  | result answer =>
    rw [Script.glance?, Option.some.injEq] at glanced
    rw [Script.read?, glanced]
  | andThen first next ihFirst ihNext =>
    rw [Script.glance?, Option.bind_eq_some_iff] at glanced
    obtain ⟨answer, glancedFirst, glancedNext⟩ := glanced
    rw [Script.read?, ihFirst glancedFirst]
    exact ihNext answer glancedNext
  | peek index =>
    rw [Script.glance?, ← peeks, Option.some.injEq] at glanced
    rw [Script.read?, glanced]
  | _ => cases glanced

/-! ### Taking a word -/

theorem Reading.Faces.takeTrivia (faces : reading.Faces table words) :
    ∃ outer count, reading.takeTrivia? = some outer ∧
      outer.row = List.replicate count none ++ reading.row ∧ outer.Faces table words ∧
      outer.toBearings = reading.toBearings := by
  obtain ⟨operators, ahead, harmless⟩ := faces
  rw [Reading.takeTrivia?]
  split
  · exact ⟨reading, 0, rfl, rfl, ⟨operators, ahead, harmless⟩, rfl⟩
  · next lexeme rest split =>
      rw [split] at ahead harmless
      rw [if_pos (harmless lexeme List.mem_cons_self)]
      refine ⟨_, lexeme.trivia.length, rfl, rfl,
        ⟨operators, ahead, fun other member => ?_⟩, rfl⟩
      rcases List.mem_cons.mp member with rfl | later
      · rfl
      · exact harmless other (List.mem_cons_of_mem lexeme later)

namespace Carries

variable {ground : Ground} {calls left need : Nat}
  {source target : Stage} {ahead rest : List Sight} {done : List Sketch}

theorem glance {script : Script α} (glanced : script.glance? ahead = some value) :
    Carries ground calls script value 0 ⟨ahead, done⟩ ⟨ahead, done⟩ :=
  of_reads le_rfl fun _ reading _ _ isAt =>
    ⟨reading, script.read?_of_glance? isAt.peek glanced, isAt, rfl, rfl⟩

theorem bump {sight : Sight} :
    Carries ground calls .bump () 0 ⟨sight :: rest, done⟩
      ⟨rest, done ++ [.leaf sight.kind sight.text]⟩ := by
  refine of_reads (Nat.le_succ _) fun _ reading base _ isAt => ?_
  obtain ⟨outer, count, taken, row, ⟨operators, ahead, harmless⟩, bearings⟩ :=
    isAt.faces.takeTrivia
  obtain ⟨new, split, -, sketches⟩ := isAt.row
  cases unread : outer.ahead with
  | nil => rw [unread] at ahead; cases ahead
  | cons lexeme later =>
    rw [unread] at ahead harmless
    obtain ⟨seen, ahead⟩ := List.cons.inj ahead
    have next : outer.takeToken =
        { outer with
          ahead := later
          row := some (.leaf lexeme.token) :: outer.row
          position := outer.position + 1
          openBrackets := State.bracketsAfter lexeme.token.kind outer.openBrackets } := by
      rw [Reading.takeToken, unread]
    refine ⟨outer.takeToken, by rw [Script.read?, Reading.bump?, taken]; rfl, ?_, ?_, ?_⟩
    · rw [next]
      refine ⟨⟨operators, ahead, fun other member =>
        harmless other (List.mem_cons_of_mem lexeme member)⟩,
        some (.leaf lexeme.token) :: (List.replicate count none ++ new), ?_, by simp, ?_⟩
      · simp only [row, split, List.cons_append, List.append_assoc]
      · rw [Shape.sketches_push, sketches, ← seen]
        rfl
    · rw [next]
      exact (congrArg Bearings.depth bearings : outer.depth = reading.depth)
    · rw [next]
      simp only [bearings, List.length_cons]
      omega

/-! ### Nodes -/

theorem node {body : Script (Option NodeKind)} {kind : NodeKind}
    {children : List Sketch}
    (inside : Moves ground calls left body (some kind) need ⟨ahead, []⟩ ⟨rest, children⟩) :
    Moves ground calls left (.node body) true need ⟨ahead, done⟩
      ⟨rest, done ++ [.node kind none children]⟩ where
  shrinks := inside.shrinks
  reads bound reading base enough isAt rounds deep := by
    obtain ⟨outer, count, taken, row, faces, bearings⟩ := isAt.faces.takeTrivia
    obtain ⟨new, split, -, sketches⟩ := isAt.row
    have depth : outer.depth = reading.depth := congrArg Bearings.depth bearings
    obtain ⟨inner, read, isInner, depthInner, positionInner⟩ :=
      inside.reads bound { outer with row := [] } [] enough faces.open rounds (depth.symm ▸ deep)
    obtain ⟨added, splitInner, -, sketchesInner⟩ := isInner.row
    refine ⟨inner.close kind outer.row, ?_, ⟨isInner.faces.close, ?_⟩,
      depthInner.trans (congrArg (· - left) depth), positionInner.trans ?_⟩
    · rw [Script.read?, taken, Option.bind_some, read]
      rfl
    · refine ⟨some (.node kind inner.row.shapes) :: (List.replicate count none ++ new), ?_, by simp,
        ?_⟩
      · rw [Reading.close, row, split, List.cons_append, List.append_assoc]
      · rw [Shape.sketches_push, sketches, Shape.sketch, splitInner, List.append_nil, sketchesInner]
    · exact congrArg (Bearings.position · + ahead.length) bearings
  fails bound reading base enough isAt rounds within deep := by
    obtain ⟨outer, count, taken, row, faces, bearings⟩ := isAt.faces.takeTrivia
    have depth : outer.depth = reading.depth := congrArg Bearings.depth bearings
    rw [Script.read?, taken, Option.bind_some,
      inside.fails bound { outer with row := [] } [] enough faces.open rounds
        (depth.symm ▸ within) (depth.symm ▸ deep)]
    rfl

end Carries

theorem Reading.IsAt.last {ahead : List Sight} {done : List Sketch} {last : Sketch}
    (isAt : reading.IsAt table ⟨ahead, done ++ [last]⟩ base) :
    ∃ shape below, reading.row = some shape :: (below ++ base) ∧ shape.sketch = last ∧
      Shape.sketches (Shape.Row.shapes below) = done := by
  obtain ⟨new, split, solid, sketches⟩ := isAt.row
  match new with
  | [] => simp [Shape.sketches] at sketches
  | some shape :: below =>
    rw [Shape.Row.shapes_cons_some, Shape.sketches_append] at sketches
    obtain ⟨before, same⟩ := List.append_inj' sketches rfl
    exact ⟨shape, below, split, (List.cons.inj same).1, before⟩

theorem Reading.IsAt.alone {below : Shape.Row} {shape : Shape}
    (isAt : reading.IsAt table stage base) (row : reading.row = some shape :: below) :
    { reading with row := reading.row.take 1 }.IsAt table ⟨stage.ahead, [shape.sketch]⟩ [] :=
  ⟨⟨isAt.faces.operators, isAt.faces.ahead, isAt.faces.harmless⟩, [some shape],
    by rw [row]; rfl, nofun, rfl⟩

namespace Carries

variable {ground : Ground} {calls left need : Nat} {source target : Stage}
  {ahead rest : List Sight} {done : List Sketch}

variable {σ : Type} {body item : Script Unit} {round : σ → Script (ForInStep σ)} {state : σ}
  {text : String} {test : Script Bool} {separator : TokenKind}

theorem wrap {kind : NodeKind} {last : Sketch} {children : List Sketch}
    (inside : Carries ground calls body () need ⟨ahead, [last]⟩ ⟨rest, children⟩) :
    Carries ground calls (.wrap kind body) () need ⟨ahead, done ++ [last]⟩
      ⟨rest, done ++ [.node kind none children]⟩ where
  shrinks := inside.shrinks
  reads bound reading base enough isAt rounds deep := by
    obtain ⟨shape, below, row, rfl, sketches⟩ := isAt.last
    obtain ⟨inner, read, isInner, depth, position⟩ :=
      inside.reads bound { reading with row := reading.row.take 1 } [] enough
        (isAt.alone row) rounds deep
    obtain ⟨added, splitInner, -, sketchesInner⟩ := isInner.row
    refine ⟨inner.close kind (reading.row.drop 1), ?_, ⟨isInner.faces.close, ?_⟩, depth, position⟩
    · rw [Script.read?, read]
      rfl
    · refine ⟨some (.node kind inner.row.shapes) :: below, ?_, by simp, ?_⟩
      · rw [row]
        rfl
      · rw [Shape.Row.shapes_cons_some, Shape.sketches_append, sketches, splitInner,
          List.append_nil, ← show Shape.sketches added.shapes = children from sketchesInner]
        rfl
  fails bound reading base enough isAt rounds within deep := by
    obtain ⟨shape, below, row, rfl, sketches⟩ := isAt.last
    rw [Script.read?, inside.fails bound { reading with row := reading.row.take 1 } [] enough
      (isAt.alone row) rounds within deep]
    rfl

/-! ### Levels and rules -/

theorem enter {yes no : Script α}
    (inside : Moves ground calls 1 yes value need source target) :
    Carries ground calls (enter >>= fun entered => if entered = true then yes else no) value
      (need + 1) source target where
  shrinks := inside.shrinks
  reads bound reading base enough isAt rounds deep := by
    have room : reading.depth < maxDepth := by omega
    obtain ⟨inner, read, onward⟩ :=
      inside.reads bound { reading with depth := reading.depth + 1 } base enough
        isAt.atDepth rounds (by dsimp only; omega)
    exact ⟨inner, by rw [read?_enter, if_pos room, read], onward⟩
  fails bound reading base enough isAt rounds within deep := by
    rw [read?_enter]
    split
    · next room =>
        exact inside.fails bound { reading with depth := reading.depth + 1 } base enough
          isAt.atDepth rounds room (by dsimp only; omega)
    · rfl

theorem level {body : Script α} {no : Script α}
    (inside : Carries ground calls body value need source target) :
    Carries ground calls (do
      if (← Grammar.enter) then
        let finished ← body
        Script.leave
        Pure.pure finished
      else no) value (need + 1) source target :=
  enter (before inside (answer leave value))

theorem call {rule : Rule} {value : Bool}
    (inside : Carries ground calls (scriptOf rule) value need source target) :
    Carries ground (calls + 1) (.call rule) value need source target where
  shrinks := inside.shrinks
  reads bound reading base enough := by
    obtain ⟨bound, rfl⟩ := Nat.exists_eq_add_of_le' enough
    exact inside.reads _ reading base (Nat.le_add_left _ _)
  fails bound reading base enough := by
    obtain ⟨bound, rfl⟩ := Nat.exists_eq_add_of_le' enough
    exact inside.fails _ reading base (Nat.le_add_left _ _)

/-! ### Loops -/

/-- Turns of a loop, each but the last of which takes a word. -/
inductive Turns {σ : Type} (ground : Ground) (calls : Nat) (round : σ → Script (ForInStep σ)) :
    σ → σ → Nat → Stage → Stage → Prop where
  | done {state value : σ} {need : Nat} {source target : Stage}
      (last : Carries ground calls (round state) (.done value) need source target) :
      Turns ground calls round state value need source target
  | yield {state middle value : σ} {need further : Nat} {source between target : Stage}
      (first : Carries ground calls (round state) (.yield middle) need source between)
      (takes : between.ahead.length < source.ahead.length)
      (later : Turns ground calls round middle value further between target) :
      Turns ground calls round state value (max need further) source target

theorem Turns.shrinks {value : σ}
    (turns : Turns ground calls round state value need source target) :
    target.ahead.length ≤ source.ahead.length := by
  induction turns with
  | done last => exact last.shrinks
  | yield first takes later ih => exact ih.trans takes.le

/-- As every turn but the last takes a word, as many turns are enough as there are words. -/
theorem Turns.iterate {value : σ}
    (turns : Turns ground calls round state value need source target) {count bound : Nat}
    (many : source.ahead.length < count) (enough : calls ≤ bound)
    (isAt : reading.IsAt ground.table source base)
    (rounds : source.ahead.length < ground.setting.rounds) (within : reading.depth ≤ maxDepth) :
    (reading.depth + need ≤ maxDepth → ∃ next,
      iterate? (fun value reading =>
          (round value).read? (.upTo ground.setting bound) reading)
        count state reading = some (value, next) ∧
      next.IsAt ground.table target base ∧ next.depth = reading.depth ∧
      next.position + target.ahead.length = reading.position + source.ahead.length) ∧
    (maxDepth < reading.depth + need →
      iterate? (fun value reading =>
          (round value).read? (.upTo ground.setting bound) reading)
        count state reading = none) := by
  induction turns generalizing count reading with
  | done last =>
    obtain ⟨count, rfl⟩ := Nat.exists_eq_add_of_le' (Nat.zero_lt_of_lt many)
    constructor
    · intro deep
      obtain ⟨next, read, onward⟩ := last.reads bound reading base enough isAt rounds deep
      exact ⟨next, by rw [iterate?, read]; rfl, onward⟩
    · intro deep
      rw [iterate?, last.fails bound reading base enough isAt rounds within deep]
      rfl
  | @yield state middle value need further source between target first takes later ih =>
    obtain ⟨count, rfl⟩ := Nat.exists_eq_add_of_le' (Nat.zero_lt_of_lt many)
    by_cases fits : reading.depth + need ≤ maxDepth
    · obtain ⟨next, read, isNext, depth, position⟩ :=
        first.reads bound reading base enough isAt rounds fits
      rw [Nat.sub_zero] at depth
      obtain ⟨reads, fails⟩ := ih (takes.trans_le (Nat.le_of_lt_succ many)) isNext (by omega)
        (by omega)
      constructor
      · intro deep
        obtain ⟨last, readLast, isLast, depthLast, positionLast⟩ := reads (by omega)
        refine ⟨last, ?_, isLast, depthLast.trans depth, positionLast.trans position⟩
        rw [iterate?, read]
        exact readLast
      · intro deep
        rw [iterate?, read]
        exact fails (by omega)
    · refine ⟨fun deep => absurd deep (by omega), fun _ => ?_⟩
      rw [iterate?, first.fails bound reading base enough isAt rounds within (by omega)]
      rfl

theorem loop {value : σ} (turns : Turns ground calls round state value need source target) :
    Carries ground calls (.loop state round) value need source target where
  shrinks := turns.shrinks
  reads _ _ _ enough isAt rounds deep :=
    (turns.iterate rounds enough isAt rounds (by omega)).1 deep
  fails _ _ _ enough isAt rounds within deep :=
    (turns.iterate rounds enough isAt rounds within).2 deep

/-! ### The words of productions -/

theorem ignore {script : Script α}
    (carries : Carries ground calls script value need source target) :
    Carries ground calls (ignore script) () need source target :=
  before carries (pure () target)

theorem nodeOf {kind : NodeKind} {children : List Sketch}
    (inside : Moves ground calls left body () need ⟨ahead, []⟩ ⟨rest, children⟩) :
    Moves ground calls left (nodeOf kind body) true need ⟨ahead, done⟩
      ⟨rest, done ++ [.node kind none children]⟩ :=
  node (answer inside (some kind))

theorem single {kind : NodeKind} {sight : Sight} :
    Carries ground calls (single kind) true 0 ⟨sight :: rest, done⟩
      ⟨rest, done ++ [.node kind none [.leaf sight.kind sight.text]]⟩ :=
  nodeOf bump

theorem seen {wanted : TokenKind} (seen : frontKind ahead = wanted) :
    Carries ground calls (Grammar.sees wanted) true 0 ⟨ahead, done⟩ ⟨ahead, done⟩ :=
  glance (congrArg some (decide_eq_true seen))

theorem unseen {wanted : TokenKind} (unseen : frontKind ahead ≠ wanted) :
    Carries ground calls (Grammar.sees wanted) false 0 ⟨ahead, done⟩ ⟨ahead, done⟩ :=
  glance (congrArg some (decide_eq_false unseen))

theorem eat {kind : TokenKind} :
    Carries ground calls (eat kind) true 0 ⟨⟨kind, text⟩ :: rest, done⟩
      ⟨rest, done ++ [.leaf kind text]⟩ :=
  after (seen rfl) (after bump (pure true _))

theorem expect {kind : TokenKind} :
    Carries ground calls (expect kind) true 0 ⟨⟨kind, text⟩ :: rest, done⟩
      ⟨rest, done ++ [.leaf kind text]⟩ :=
  after eat (pure true _)

theorem expectClosing {bracket : Bracket} :
    Carries ground calls (expectClosing bracket) () 0 ⟨⟨.closing bracket, text⟩ :: rest, done⟩
      ⟨rest, done ++ [.leaf (.closing bracket) text]⟩ :=
  after eat (pure () _)

/-! ### Loops over words -/

theorem whileSeen
    (turns : Turns ground calls (whileRound test body) () () need source target) :
    Carries ground calls (whileSeen test body) () need source target :=
  loop turns

theorem Turns.unseen (fails : test.glance? ahead = some false) :
    Turns ground calls (whileRound test body) () () 0 ⟨ahead, done⟩ ⟨ahead, done⟩ :=
  .done (after (glance fails) (pure _ _))

theorem Turns.seen {further : Nat} {middle : Stage} (holds : test.glance? ahead = some true)
    (first : Carries ground calls body () need ⟨ahead, done⟩ middle)
    (takes : middle.ahead.length < ahead.length)
    (later : Turns ground calls (whileRound test body) () () further middle target) :
    Turns ground calls (whileRound test body) () () (max need further) ⟨ahead, done⟩
      target :=
  .yield (after (glance holds) (before first (pure _ _))) takes later

theorem separated
    (turns : Turns ground calls (separatedRound separator item) () () need source target) :
    Carries ground calls (separated separator item) () need source target :=
  loop turns

theorem Turns.last (carries : Carries ground calls item () need source ⟨rest, done⟩)
    (ends : frontKind rest ≠ separator) :
    Turns ground calls (separatedRound separator item) () () need source ⟨rest, done⟩ :=
  .done (before carries (after (after (Carries.unseen ends) (pure _ _)) (pure _ _)))

theorem Turns.next {further : Nat}
    (carries : Carries ground calls item () need source ⟨⟨separator, text⟩ :: rest, done⟩)
    (later : Turns ground calls (separatedRound separator item) () () further
      ⟨rest, done ++ [.leaf separator text]⟩ target) :
    Turns ground calls (separatedRound separator item) () () (max need further) source
      target :=
  .yield (before carries (after eat (pure _ _))) (Nat.lt_of_succ_le carries.shrinks) later

end Carries

end Grammar

end Offside
