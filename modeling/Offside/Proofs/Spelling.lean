import Offside.Proofs.LayoutOrder
import Offside.Proofs.Productions

/-!
# Scripts that spell

A script spells a language if every clean run of it adds to the open node a
row of formed shapes that is a word of the language.  The language may depend
on the answer of the script.  The lemmas below follow the way scripts are put
together, so that the language of a script can be read off its text.

What is known about the order of the marks of layout is kept along with the
tokens ahead, since it decides which rows a block can have.
-/

namespace Offside.Grammar

open Offside.Layout (Follows)
open Offside.Phrase
open scoped Computability

/-! ### The tokens ahead -/

namespace Reading

variable {setting : Setting} {reading after : Reading}

def kinds (reading : Reading) : List TokenKind :=
  reading.ahead.map fun lexeme => lexeme.token.kind

/-- No loop over the tokens ahead is cut short, and the marks among them are in order. -/
structure Fits (setting : Setting) (reading : Reading) : Prop where
  rounds : reading.kinds.length < setting.rounds
  spaced : List.IsChain Follows (reading.kinds ++ [.eof])

/-- The fixities in force, if none is added while the text is read. -/
def table? (setting : Setting) (reading : Reading) : Option OperatorTable :=
  if setting.declaresInOrder then none else some reading.operators

/-- Tokens have been taken, all of them are counted, and the names of modules are still neat. -/
def Onward (setting : Setting) (before after : Reading) : Prop :=
  after.kinds <:+ before.kinds ∧
    after.position + after.kinds.length = before.position + before.kinds.length ∧
    after.table? setting = before.table? setting ∧ (before.neat = true → after.neat = true)

theorem Onward.kept (onward : Onward setting reading after) : after.kinds <:+ reading.kinds :=
  onward.1

theorem Onward.counted (onward : Onward setting reading after) :
    after.position + after.kinds.length = reading.position + reading.kinds.length :=
  onward.2.1

theorem Onward.table (onward : Onward setting reading after) :
    after.table? setting = reading.table? setting :=
  onward.2.2.1

theorem Onward.neat (onward : Onward setting reading after) :
    reading.neat = true → after.neat = true :=
  onward.2.2.2

theorem Onward.refl (reading : Reading) : Onward setting reading reading :=
  ⟨List.suffix_rfl, rfl, rfl, id⟩

theorem Onward.trans {first second third : Reading} (left : Onward setting first second)
    (right : Onward setting second third) : Onward setting first third :=
  ⟨right.kept.trans left.kept, right.counted.trans left.counted, right.table.trans left.table,
    right.neat ∘ left.neat⟩

theorem Onward.close (onward : Onward setting reading after) {kind : NodeKind} {outer : Shape.Row}
    (single : kind = .moduleName → after.row.length = 1) :
    Onward setting reading (after.close kind outer) := by
  refine ⟨onward.kept, onward.counted, onward.table, fun neat => ?_⟩
  rw [Reading.close, onward.neat neat]
  simpa [imp_iff_not_or] using single

theorem Fits.onward (fits : reading.Fits setting) (onward : Onward setting reading after) :
    after.Fits setting := by
  refine ⟨Nat.lt_of_le_of_lt onward.kept.length_le fits.rounds, fits.spaced.suffix ?_⟩
  obtain ⟨taken, same⟩ := onward.kept
  exact ⟨taken, by rw [← same, List.append_assoc]⟩

def SeesAs (reading other : Reading) : Prop :=
  other.peek = reading.peek

def SeesNext (reading other : Reading) : Prop :=
  other.peek = fun index => reading.peek (index + 1)

theorem peek_zero_of_ahead {lexeme : Lexeme} {rest : List Lexeme}
    (ahead : reading.ahead = lexeme :: rest) : reading.peek 0 = Sight.ofToken lexeme.token := by
  rw [peek, ahead]
  rfl

theorem ahead_ne_nil (notEnd : (reading.peek 0).kind ≠ .eof) : reading.ahead ≠ [] := by
  intro isEmpty
  rw [peek, isEmpty] at notEnd
  exact notEnd rfl

theorem kinds_append_eof (reading : Reading) :
    ∃ rest, reading.kinds ++ [.eof] = (reading.peek 0).kind :: rest := by
  cases ahead : reading.ahead with
  | nil =>
    rw [kinds, peek, ahead]
    exact ⟨_, rfl⟩
  | cons lexeme rest =>
    rw [kinds, ahead, peek_zero_of_ahead ahead]
    exact ⟨_, rfl⟩

theorem takeTrivia?_eq_some (setting : Setting) (taken : reading.takeTrivia? = some after) :
    after.kinds = reading.kinds ∧ Onward setting reading after ∧ reading.SeesAs after ∧
      ∃ blanks : Shape.Row, blanks.shapes = [] ∧ after.row = blanks ++ reading.row := by
  rw [takeTrivia?] at taken
  split at taken
  · cases taken
    exact ⟨rfl, .refl _, rfl, [], rfl, rfl⟩
  · next lexeme rest ahead =>
      split at taken
      · cases taken
        have same : kinds { reading with ahead := { lexeme with trivia := [] } :: rest } =
            reading.kinds := by
          simp [kinds, ahead]
        have total := congrArg (reading.position + ·.length) same
        refine ⟨same, ⟨same ▸ List.suffix_rfl, total, rfl, id⟩, ?_,
          _, Shape.Row.shapes_replicate_none _, rfl⟩
        · funext index
          cases index with
          | zero => simp [peek, ahead]
          | succ index => simp [peek, ahead]
      · cases taken

theorem bump?_eq_some (setting : Setting) (taken : reading.bump? = some after)
    (nonempty : reading.ahead ≠ []) :
    reading.kinds = (reading.peek 0).kind :: after.kinds ∧ Onward setting reading after ∧
      reading.SeesNext after ∧ ∃ token, Sight.ofToken token = reading.peek 0 ∧
        ∃ blanks : Shape.Row, blanks.shapes = [] ∧
          after.row = some (.leaf token) :: (blanks ++ reading.row) := by
  obtain ⟨outer, trivia, rfl⟩ := Option.map_eq_some_iff.mp taken
  obtain ⟨sameKinds, opens, sameSights, blanks, shapeless, row⟩ :=
    takeTrivia?_eq_some setting trivia
  rw [SeesNext, ← sameKinds, ← sameSights]
  obtain ⟨lexeme, rest, ahead⟩ : ∃ lexeme rest, outer.ahead = lexeme :: rest := by
    refine List.exists_cons_of_ne_nil fun empty => nonempty ?_
    rw [kinds, empty] at sameKinds
    exact List.map_eq_nil_iff.mp sameKinds.symm
  have kindsOuter : outer.kinds = lexeme.token.kind :: kinds { outer with ahead := rest } := by
    rw [kinds, ahead]
    rfl
  rw [takeToken, ahead, peek_zero_of_ahead ahead]
  refine ⟨kindsOuter, opens.trans ⟨?_, ?_, rfl, id⟩, ?_, lexeme.token, rfl, blanks, shapeless, ?_⟩
  · rw [kindsOuter]
    exact List.suffix_cons _ _
  · rw [kindsOuter]
    exact Nat.add_right_comm outer.position 1 _
  · funext index
    rw [peek, peek, ahead]
    rfl
  · rw [row]

theorem length_row_bump? {outer : Reading} (trivia : reading.takeTrivia? = some outer)
    (nonempty : outer.ahead ≠ []) (taken : bump? { outer with row := [] } = some after) :
    after.row.length = 1 := by
  rw [takeTrivia?] at trivia
  split at trivia
  · next ended =>
      cases trivia
      exact absurd ended nonempty
  · split at trivia
    · cases trivia
      cases taken
      rfl
    · cases trivia

end Reading

/-! ### Judgements -/

/-- What a clean run has added to the open node is a formed word of the language. -/
structure Adds (setting : Setting) (before after : Reading) (language : Language Shape) : Prop where
  onward : before.Onward setting after
  row : ∃ new : Shape.Row, after.row = new ++ before.row ∧ new.shapes ∈ language ∧
    ∀ shape ∈ new.shapes, shape.Formed (before.table? setting)

/-- One node has been added to the open node: an accepted and formed shape, which comes last. -/
structure Holding (setting : Setting) (before after : Reading) (accepts : Shape → Prop) : Prop where
  onward : before.Onward setting after
  last : ∃ shape, ∃ blanks : Shape.Row, accepts shape ∧
    shape.Formed (before.table? setting) ∧ blanks.shapes = [] ∧
    after.row = some shape :: (blanks ++ before.row)

section Judgements

variable (reader : Reader) {α : Type}

/-- From the reading, every clean run of the script adds a word of the language of its answer. -/
def Yields (reading : Reading) (script : Script α) (language : α → Language Shape) : Prop :=
  reading.Fits reader.setting → ∀ answer after,
    script.read? reader reading = some (answer, after) →
      Adds reader.setting reading after (language answer)

/-- Every clean run of the script adds a word of the language of its answer. -/
def Spells (script : Script α) (language : α → Language Shape) : Prop :=
  ∀ reading, Yields reader reading script language

/--
From the reading, every clean run of the script says that it has left a node,
and since `before` that node is the only shape added.
-/
def Hands (before reading : Reading) (script : Script Bool) (accepts : Shape → Prop) : Prop :=
  before.Fits reader.setting → ∀ answer after,
    script.read? reader reading = some (answer, after) →
      answer = true ∧ Holding reader.setting before after accepts

/-- The script only looks, and its answer is told by the tokens ahead. -/
def Watches (test : Script α) (answer : (Nat → Sight) → α) : Prop :=
  ∀ reading, test.read? reader reading = some (answer reading.peek, reading)

end Judgements

variable {setting : Setting} {reader : Reader}
  {reading : Reading} {α β : Type} {left right : Language Shape}
  {language further : α → Language Shape}

theorem Adds.refl (reading : Reading) : Adds setting reading reading 1 :=
  ⟨.refl reading, [], rfl, rfl, List.forall_mem_nil _⟩

theorem Adds.trans {first second third : Reading} (head : Adds setting first second left)
    (tail : Adds setting second third right) : Adds setting first third (left * right) := by
  obtain ⟨onHead, new, row, spelled, formed⟩ := head
  obtain ⟨onTail, more, rowMore, spelledMore, formedMore⟩ := tail
  rw [onHead.table] at formedMore
  refine ⟨onHead.trans onTail, more ++ new, ?_, ?_, ?_⟩
  · rw [rowMore, row, List.append_assoc]
  · rw [Shape.Row.shapes_append]
    exact Language.append_mem_mul spelled spelledMore
  · intro shape member
    rw [Shape.Row.shapes_append, List.mem_append] at member
    exact member.elim (formed shape) (formedMore shape)

variable {before after : Reading} {accepts : Shape → Prop} {first yes no : Script α}
  {whole : β → Language Shape} {wanted : TokenKind} {item : Script Unit}

theorem Adds.mono (adds : Adds setting before after left) (le : left ≤ right) :
    Adds setting before after right := by
  obtain ⟨onward, new, row, spelled, formed⟩ := adds
  exact ⟨onward, new, row, le spelled, formed⟩

theorem Yields.mono {script : Script α} (yields : Yields reader reading script language)
    (le : ∀ answer, language answer ≤ further answer) : Yields reader reading script further :=
  fun fits answer after read => (yields fits answer after read).mono (le answer)

theorem Holding.adds (holding : Holding setting before after accepts) :
    Adds setting before after (one accepts) := by
  obtain ⟨onward, shape, blanks, accepted, formed, shapeless, row⟩ := holding
  refine ⟨onward, some shape :: blanks, row, ?_, ?_⟩
  · rw [Shape.Row.shapes_cons_some, shapeless]
    exact ⟨shape, accepted, rfl⟩
  · intro other member
    rw [Shape.Row.shapes_cons_some, shapeless, List.nil_append, List.mem_singleton] at member
    rw [member]
    exact formed

theorem Holding.mono {wider : Shape → Prop} (holding : Holding setting before after accepts)
    (implies : ∀ shape, accepts shape → wider shape) : Holding setting before after wider := by
  obtain ⟨onward, shape, blanks, accepted, rest⟩ := holding
  exact ⟨onward, shape, blanks, implies shape accepted, rest⟩

theorem Hands.yields {script : Script Bool} (hands : Hands reader reading reading script accepts) :
    Yields reader reading script fun _ => one accepts :=
  fun fits answer after read => (hands fits answer after read).2.adds

theorem Hands.mono {script : Script Bool} {wider : Shape → Prop}
    (hands : Hands reader before reading script accepts)
    (implies : ∀ shape, accepts shape → wider shape) :
    Hands reader before reading script wider := by
  intro fits answer after read
  obtain ⟨said, holding⟩ := hands fits answer after read
  exact ⟨said, holding.mono implies⟩

/-! ### Sequences -/

theorem yields_pure {answer : α} (empty : [] ∈ language answer) :
    Yields reader reading (pure answer) language := by
  intro _ value after read
  cases read
  exact ⟨.refl reading, [], rfl, empty, List.forall_mem_nil _⟩

theorem Yields.bind {next : α → Script β} {tails : α → β → Language Shape}
    (head : Yields reader reading first language)
    (tail : ∀ answer after, first.read? reader reading = some (answer, after) →
      Yields reader after (next answer) (tails answer))
    (join : ∀ answer value, language answer * tails answer value ≤ whole value) :
    Yields reader reading (first >>= next) whole := by
  intro fits value final read
  obtain ⟨⟨answer, after⟩, readFirst, readNext⟩ := Option.bind_eq_some_iff.mp read
  have adds := head fits answer after readFirst
  have addsNext := tail answer after readFirst (fits.onward adds.onward) value final readNext
  exact (adds.trans addsNext).mono (join answer value)

theorem Yields.then {next : α → Script β} {tail : β → Language Shape}
    (head : Yields reader reading first fun _ => left)
    (later : ∀ answer, Spells reader (next answer) tail) :
    Yields reader reading (first >>= next) fun value => left * tail value :=
  head.bind (fun answer after _ => later answer after) fun _ _ => le_rfl

theorem Yields.answer {value : β} (head : Yields reader reading first fun _ => left)
    (le : left ≤ whole value) : Yields reader reading (first >>= fun _ => pure value) whole := by
  intro fits answer final read
  obtain ⟨⟨_, after⟩, readFirst, same⟩ := Option.bind_eq_some_iff.mp read
  cases same
  exact (head fits _ _ readFirst).mono le

theorem Yields.map {script : Script α} {turn : α → β}
    (yields : Yields reader reading script fun answer => whole (turn answer)) :
    Yields reader reading (script >>= fun answer => pure (turn answer)) whole := by
  intro fits answer final read
  obtain ⟨⟨value, after⟩, readFirst, same⟩ := Option.bind_eq_some_iff.mp read
  cases same
  exact yields fits value after readFirst

theorem Yields.ignore {script : Script α} (yields : Yields reader reading script fun _ => left) :
    Yields reader reading (ignore script) fun _ => left := by
  exact yields.answer le_rfl

theorem yields_of_none {script : Script α} (fails : script.read? reader reading = none) :
    Yields reader reading script language := by
  intro _ answer after read
  rw [fails] at read
  cases read

theorem hands_of_none {script : Script Bool} (fails : script.read? reader reading = none) :
    Hands reader before reading script accepts := by
  intro _ answer after read
  rw [fails] at read
  cases read

theorem Yields.look {test : Script α} {next : α → Script β} {answer : α}
    (looks : test.read? reader reading = some (answer, reading))
    (later : Yields reader reading (next answer) whole) :
    Yields reader reading (test >>= next) whole := by
  intro fits value final read
  rw [Script.read?_bind, looks] at read
  exact later fits value final read

theorem Hands.look {test : Script α} {next : α → Script Bool} {answer : α}
    (looks : test.read? reader reading = some (answer, reading))
    (later : Hands reader before reading (next answer) accepts) :
    Hands reader before reading (test >>= next) accepts := by
  intro fits value final read
  rw [Script.read?_bind, looks] at read
  exact later fits value final read

/-! ### Looking ahead -/

theorem watches_pure (answer : α) : Watches reader (pure answer) fun _ => answer :=
  fun _ => rfl

theorem watches_peek (index : Nat) :
    Watches reader (Script.peek index) fun sights => sights index :=
  fun _ => rfl

theorem watches_kindAt (index : Nat) :
    Watches reader (kindAt index) fun sights => (sights index).kind :=
  fun _ => rfl

theorem watches_kind : Watches reader kind fun sights => (sights 0).kind :=
  fun _ => rfl

theorem watches_sees (wanted : TokenKind) :
    Watches reader (sees wanted) fun sights => (sights 0).kind = wanted :=
  fun _ => rfl

theorem watches_seesAny (wanted : List TokenKind) :
    Watches reader (seesAny wanted) fun sights => wanted.contains (sights 0).kind :=
  fun _ => rfl

theorem watches_seesWord (spelling : String) :
    Watches reader (seesWord spelling)
      fun sights => (sights 0).kind = .lowerName && (sights 0).text = spelling :=
  fun _ => rfl

theorem watches_seesOperator (spelling : String) :
    Watches reader (seesOperator spelling)
      fun sights => (sights 0).kind = .operator && (sights 0).text = spelling :=
  fun _ => rfl

theorem Watches.bind {test : Script α} {next : α → Script β} {asks : (Nat → Sight) → α}
    {answers : α → (Nat → Sight) → β} (first : Watches reader test asks)
    (later : ∀ answer, Watches reader (next answer) (answers answer)) :
    Watches reader (test >>= next) fun sights => answers (asks sights) sights := by
  intro reading
  rw [Script.read?_bind, first reading]
  exact later _ reading

theorem Watches.ite {first second : (Nat → Sight) → α} {condition : Prop} [Decidable condition]
    (yesWatches : Watches reader yes first) (noWatches : Watches reader no second) :
    Watches reader (if condition then yes else no)
      fun sights => if condition then first sights else second sights := by
  intro reading
  split
  · exact yesWatches reading
  · exact noWatches reading

theorem Watches.congr {test : Script α} {asks answers : (Nat → Sight) → α}
    (watches : Watches reader test asks) (same : ∀ sights, asks sights = answers sights) :
    Watches reader test answers := by
  intro reading
  rw [watches reading, same]

theorem Watches.and {test next : Script Bool} {asks holds : (Nat → Sight) → Bool}
    (first : Watches reader test asks) (second : Watches reader next holds) :
    Watches reader
      (test >>= fun answer => if answer = true then next else pure false)
      fun sights => asks sights && holds sights :=
  (first.bind fun _ => second.ite (watches_pure false)).congr fun sights => by
    cases asks sights <;> rfl

theorem watches_kindAt_and {index : Nat} {holds : TokenKind → Bool} {next : Script Bool}
    {asks : (Nat → Sight) → Bool} (second : Watches reader next asks) :
    Watches reader
      (kindAt index >>= fun kind => if holds kind = true then next else pure false)
      fun sights => holds (sights index).kind && asks sights :=
  ((watches_kindAt index).bind fun _ => second.ite (watches_pure false)).congr fun sights => by
    cases holds (sights index).kind <;> rfl

theorem watches_kindAt_or {index : Nat} {holds : TokenKind → Bool} {next : Script Bool}
    {asks : (Nat → Sight) → Bool} (second : Watches reader next asks) :
    Watches reader
      (kindAt index >>= fun kind => if holds kind = true then pure true else next)
      fun sights => holds (sights index).kind || asks sights :=
  ((watches_kindAt index).bind fun _ => (watches_pure true).ite second).congr fun sights => by
    cases holds (sights index).kind <;> rfl

theorem watches_kindAt_is (index : Nat) (holds : TokenKind → Bool) :
    Watches reader (kindAt index >>= fun kind => pure (holds kind))
      fun sights => holds (sights index).kind :=
  fun _ => rfl

theorem Yields.test {test : Script Bool} {asks : (Nat → Sight) → Bool}
    (watches : Watches reader test asks)
    (first : asks reading.peek = true → Yields reader reading yes language)
    (second : asks reading.peek = false → Yields reader reading no language) :
    Yields reader reading
      (test >>= fun answer => if answer = true then yes else no) language := by
  refine .look (watches reading) ?_
  cases asked : asks reading.peek with
  | true => exact first asked
  | false => exact second asked

theorem Hands.test {test : Script Bool} {asks : (Nat → Sight) → Bool} {yes no : Script Bool}
    (watches : Watches reader test asks)
    (first : asks reading.peek = true → Hands reader before reading yes accepts)
    (second : asks reading.peek = false → Hands reader before reading no accepts) :
    Hands reader before reading
      (test >>= fun answer => if answer = true then yes else no) accepts := by
  refine .look (watches reading) ?_
  cases asked : asks reading.peek with
  | true => exact first asked
  | false => exact second asked

theorem Yields.seeKind {next : TokenKind → Script α}
    (later : Yields reader reading (next (reading.peek 0).kind) language) :
    Yields reader reading (kind >>= next) language :=
  .look rfl later

theorem Hands.seeKind {next : TokenKind → Script Bool}
    (later : Hands reader before reading (next (reading.peek 0).kind) accepts) :
    Hands reader before reading (kind >>= next) accepts :=
  .look rfl later

/-! ### Parts that may be missing -/

section Choices

variable {test : Script Bool} {answer : Bool} {script : Script Unit} {next : Unit → Script α}

theorem Yields.whenLook
    (looks : test.read? reader reading = some (answer, reading))
    (first : answer = true → Yields reader reading script fun _ => left)
    (later : ∀ value, Spells reader (next value) language) :
    Yields reader reading
      (test >>= fun answer => if answer = true then script >>= next else next ())
      fun value => maybe left * language value := by
  refine Yields.look looks ?_
  cases answer with
  | true => exact ((first rfl).then later).mono fun _ => mul_le_mul_left le_sup_right _
  | false => exact (later () reading).mono fun _ => le_mul_of_one_le_left' le_sup_left

theorem Yields.unlessLook
    (looks : test.read? reader reading = some (answer, reading))
    (first : answer = false → Yields reader reading script fun _ => left)
    (later : ∀ value, Spells reader (next value) language) :
    Yields reader reading
      (test >>= fun answer => if answer = true then next () else script >>= next)
      fun value => maybe left * language value := by
  refine Yields.look looks ?_
  cases answer with
  | true => exact (later () reading).mono fun _ => le_mul_of_one_le_left' le_sup_left
  | false => exact ((first rfl).then later).mono fun _ => mul_le_mul_left le_sup_right _

theorem Yields.ifLook
    (looks : test.read? reader reading = some (answer, reading))
    (first : answer = true → Yields reader reading script fun _ => left) :
    Yields reader reading
      (test >>= fun answer => if answer = true then script else pure ())
      fun _ => maybe left := by
  refine Yields.look looks ?_
  cases answer with
  | true => exact (first rfl).mono fun _ => le_sup_right
  | false => exact yields_pure (.inl rfl)

theorem Yields.ifNotLook
    (looks : test.read? reader reading = some (answer, reading))
    (first : answer = false → Yields reader reading script fun _ => left) :
    Yields reader reading
      (test >>= fun answer => if answer = true then pure () else script)
      fun _ => maybe left := by
  refine Yields.look looks ?_
  cases answer with
  | true => exact yields_pure (.inl rfl)
  | false => exact (first rfl).mono fun _ => le_sup_right

end Choices

/-! ### Tokens -/

theorem adds_bump (accepts : Sight → Bool) (accepted : accepts (reading.peek 0) = true)
    (nonempty : reading.ahead ≠ []) (bumped : reading.bump? = some after) :
    Adds setting reading after (tokenWhere accepts) := by
  obtain ⟨-, onward, -, token, sight, blanks, shapeless, row⟩ :=
    Reading.bump?_eq_some setting bumped nonempty
  refine ⟨onward, some _ :: blanks, row, ?_, ?_⟩
  · rw [Shape.Row.shapes_cons_some, shapeless]
    exact ⟨_, ⟨token, rfl, by rw [sight]; exact accepted⟩, rfl⟩
  · intro shape member
    rw [Shape.Row.shapes_cons_some, shapeless, List.nil_append, List.mem_singleton] at member
    rw [member]
    exact .leaf token

theorem Yields.bump {next : Script α} (accepts : Sight → Bool)
    (accepted : accepts (reading.peek 0) = true) (notEnd : (reading.peek 0).kind ≠ .eof)
    (later : ∀ after, reading.SeesNext after → Yields reader after next language) :
    Yields reader reading (Script.bump >>= fun _ => next)
      fun value => tokenWhere accepts * language value := by
  intro fits value final read
  obtain ⟨⟨_, after⟩, taken, readNext⟩ := Option.bind_eq_some_iff.mp read
  obtain ⟨_, bumped, same⟩ := Option.map_eq_some_iff.mp taken
  cases same
  have nonempty := Reading.ahead_ne_nil notEnd
  obtain ⟨-, onward, sights, -⟩ := Reading.bump?_eq_some reader.setting bumped nonempty
  exact (adds_bump accepts accepted nonempty bumped).trans
    (later after sights (fits.onward onward) value final readNext)

theorem fewer_bump {next : Script α} {value : α} (notEnd : (reading.peek 0).kind ≠ .eof)
    (fits : reading.Fits reader.setting)
    (later : ∀ after, reading.SeesNext after → Yields reader after next language)
    (read : (Script.bump >>= fun _ => next).read? reader reading = some (value, after)) :
    after.kinds.length < reading.kinds.length := by
  obtain ⟨⟨_, middle⟩, taken, readNext⟩ := Option.bind_eq_some_iff.mp read
  obtain ⟨_, bumped, same⟩ := Option.map_eq_some_iff.mp taken
  cases same
  obtain ⟨kinds, onward, sights, -⟩ :=
    Reading.bump?_eq_some reader.setting bumped (Reading.ahead_ne_nil notEnd)
  have rest := (later middle sights (fits.onward onward) value after readNext).onward
  rw [kinds]
  exact Nat.lt_succ_of_le rest.kept.length_le

theorem Yields.take {next : Script α} {kind : TokenKind}
    (seen : (reading.peek 0).kind = kind) (notEnd : kind ≠ .eof)
    (later : Spells reader next language) :
    Yields reader reading (Script.bump >>= fun _ => next)
      fun value => token kind * language value :=
  Yields.bump (fun sight => sight.kind = kind) (decide_eq_true seen)
    (by rw [seen]; exact notEnd) fun after _ => later after

theorem Yields.last (accepts : Sight → Bool) (accepted : accepts (reading.peek 0) = true)
    (notEnd : (reading.peek 0).kind ≠ .eof) :
    Yields reader reading Script.bump fun _ => tokenWhere accepts := by
  have alone : Yields reader reading (Script.bump >>= fun _ => pure ())
      fun _ => tokenWhere accepts * 1 :=
    .bump accepts accepted notEnd fun _ _ => yields_pure rfl
  intro fits value final read
  refine (alone fits () final ?_).mono (by rw [mul_one])
  rw [Script.read?_bind, read]
  rfl

/-! ### What is left to spell -/

/-- The words that complete every word of the first language to one of the second. -/
def rest (done whole : Language Shape) : Language Shape :=
  {word | ∀ front ∈ done, front ++ word ∈ whole}

theorem mul_rest_le (done left whole : Language Shape) :
    left * rest (done * left) whole ≤ rest done whole := by
  rintro _ ⟨middle, inLeft, back, inRest, rfl⟩ front inDone
  rw [← List.append_assoc]
  exact inRest _ (Language.append_mem_mul inDone inLeft)

theorem nil_mem_rest {done whole : Language Shape} (le : done ≤ whole) : [] ∈ rest done whole := by
  intro front inDone
  rw [List.append_nil]
  exact le inDone

section Rest

variable {done : Language Shape} {whole : β → Language Shape}

theorem Yields.of_rest {script : Script β}
    (yields : Yields reader reading script fun value => rest 1 (whole value)) :
    Yields reader reading script whole :=
  yields.mono fun _ _ member => member [] rfl

theorem Yields.on {next : α → Script β} (head : Yields reader reading first language)
    (later : ∀ answer, Spells reader (next answer)
      fun value => rest (done * language answer) (whole value)) :
    Yields reader reading (first >>= next) fun value => rest done (whole value) :=
  head.bind (fun answer after _ => later answer after) fun _ _ => mul_rest_le _ _ _

theorem Yields.onToken {next : Script β} (accepts : Sight → Bool)
    (accepted : accepts (reading.peek 0) = true) (notEnd : (reading.peek 0).kind ≠ .eof)
    (later : ∀ after, reading.SeesNext after → Yields reader after next
      fun value => rest (done * tokenWhere accepts) (whole value)) :
    Yields reader reading (Script.bump >>= fun _ => next)
      fun value => rest done (whole value) :=
  (Yields.bump accepts accepted notEnd later).mono fun _ => mul_rest_le _ _ _

theorem yields_done {value : β} (le : done ≤ whole value) :
    Yields reader reading (pure value) fun value => rest done (whole value) :=
  yields_pure (nil_mem_rest le)

end Rest

theorem read?_eat (wanted : TokenKind) (reading : Reading) :
    (eat wanted).read? reader reading =
      if (reading.peek 0).kind = wanted then reading.bump?.map (true, ·)
      else some (false, reading) := by
  by_cases seen : (reading.peek 0).kind = wanted
  · rw [if_pos seen, Script.read?_bind,
      show (sees wanted).read? reader reading = some (true, reading) from
        congrArg (fun answer => some (answer, reading)) (decide_eq_true seen)]
    change (reading.bump?.map ((), ·)).bind _ = _
    cases reading.bump? <;> rfl
  · rw [if_neg seen, Script.read?_bind,
      show (sees wanted).read? reader reading = some (false, reading) from
        congrArg (fun answer => some (answer, reading)) (decide_eq_false seen)]
    rfl

theorem read?_eat_of_expect {answer : Bool}
    (read : (expect wanted).read? reader reading = some (answer, after)) :
    answer = true ∧ (eat wanted).read? reader reading = some (true, after) := by
  obtain ⟨⟨eaten, _⟩, readEat, rest⟩ := Option.bind_eq_some_iff.mp read
  cases eaten with
  | true =>
    cases rest
    exact ⟨rfl, readEat⟩
  | false => cases rest

theorem yields_eat (notEnd : wanted ≠ .eof) :
    Yields reader reading (eat wanted)
      fun answer => if answer = true then token wanted else 1 := by
  intro fits answer after read
  rw [read?_eat] at read
  split at read
  · next seen =>
      obtain ⟨onward, bumped, same⟩ := Option.map_eq_some_iff.mp read
      cases same
      have taken : Yields reader reading Script.bump fun _ => token wanted :=
        .last (fun sight => sight.kind = wanted) (decide_eq_true seen)
          (by rw [seen]; exact notEnd)
      exact taken fits () after (congrArg _ bumped)
  · cases read
    exact .refl reading

theorem yields_expect (notEnd : wanted ≠ .eof) :
    Yields reader reading (expect wanted) fun _ => token wanted := by
  intro fits answer after read
  exact yields_eat notEnd fits true after (read?_eat_of_expect read).2

theorem Yields.ifExpect (notEnd : wanted ≠ .eof) (later : Spells reader yes language) :
    Yields reader reading
      (expect wanted >>= fun answer => if answer = true then yes else no)
      fun value => token wanted * language value := by
  refine (yields_expect notEnd).bind (fun answer after read => ?_) fun _ _ => le_rfl
  rw [if_pos (read?_eat_of_expect read).1]
  exact later after

theorem Yields.ifTaken {taker : Script Bool}
    (takes : Yields reader reading taker fun answer => if answer = true then left else 1)
    (first : Spells reader yes language) (second : Spells reader no further) :
    Yields reader reading
      (taker >>= fun answer => if answer = true then yes else no)
      fun value => left * language value + further value := by
  have tail : ∀ answer after, taker.read? reader reading = some (answer, after) →
      Yields reader after (if answer = true then yes else no)
        (if answer = true then language else further) := by
    intro answer after _
    cases answer with
    | true => exact first after
    | false => exact second after
  refine takes.bind tail fun answer value => ?_
  cases answer with
  | true => exact le_sup_left
  | false =>
    show 1 * further value ≤ _
    rw [one_mul]
    exact le_sup_right

theorem Yields.ifTakenOr {taker : Script Bool}
    (takes : Yields reader reading taker fun answer => if answer = true then left else 1)
    (later : Spells reader yes language) (fails : ∀ reading, no.read? reader reading = none) :
    Yields reader reading
      (taker >>= fun answer => if answer = true then yes else no)
      fun value => left * language value := by
  have never : Spells reader no fun _ => (0 : Language Shape) :=
    fun reading => yields_of_none (fails reading)
  refine (takes.ifTaken later never).mono fun value => ?_
  rw [add_zero]

theorem Yields.ifEat (notEnd : wanted ≠ .eof) (first : Spells reader yes language)
    (second : Spells reader no further) :
    Yields reader reading
      (eat wanted >>= fun answer => if answer = true then yes else no)
      fun value => token wanted * language value + further value :=
  (yields_eat notEnd).ifTaken first second

section RestChoices

variable {wanted : TokenKind} {done : Language Shape} {whole : β → Language Shape}

theorem Yields.onEat {yes no : Script β} (notEnd : wanted ≠ .eof)
    (first : Spells reader yes fun value => rest (done * token wanted) (whole value))
    (second : Spells reader no fun value => rest done (whole value)) :
    Yields reader reading
      (eat wanted >>= fun answer => if answer = true then yes else no)
      fun value => rest done (whole value) :=
  (Yields.ifEat notEnd first second).mono fun _ => sup_le (mul_rest_le _ _ _) le_rfl

theorem Yields.onExpect {yes no : Script β} (notEnd : wanted ≠ .eof)
    (later : Spells reader yes fun value => rest (done * token wanted) (whole value)) :
    Yields reader reading
      (expect wanted >>= fun answer => if answer = true then yes else no)
      fun value => rest done (whole value) :=
  (Yields.ifExpect notEnd later).mono fun _ => mul_rest_le _ _ _

theorem Yields.onEatPart {script : Script Unit} {next : Unit → Script β} (notEnd : wanted ≠ .eof)
    (part : Spells reader script fun _ => left) (later : ∀ value, Spells reader (next value)
      fun value => rest (done * maybe (token wanted * left)) (whole value)) :
    Yields reader reading
      (eat wanted >>= fun answer => if answer = true then script >>= next else next ())
      fun value => rest done (whole value) := by
  have first : Spells reader (script >>= next) fun value =>
      left * rest (done * maybe (token wanted * left)) (whole value) := fun reading =>
    (part reading).then later
  refine (Yields.ifEat notEnd first (later ())).mono fun value => ?_
  have within : token wanted * left ≤ maybe (token wanted * left) := le_sup_right
  have beside : (1 : Language Shape) ≤ maybe (token wanted * left) := le_sup_left
  have whole_le := mul_rest_le done (maybe (token wanted * left)) (whole value)
  refine sup_le ?_ ((le_mul_of_one_le_left' beside).trans whole_le)
  rw [← mul_assoc]
  exact (mul_le_mul_left within _).trans whole_le

theorem Yields.onPart {test : Script Bool} {answer : Bool} {script : Script Unit}
    {next : Unit → Script β} (looks : test.read? reader reading = some (answer, reading))
    (part : answer = true → Yields reader reading script fun _ => left)
    (later : ∀ value, Spells reader (next value)
      fun value => rest (done * maybe left) (whole value)) :
    Yields reader reading
      (test >>= fun answer => if answer = true then script >>= next else next ())
      fun value => rest done (whole value) :=
  (Yields.whenLook looks part later).mono fun _ => mul_rest_le _ _ _

end RestChoices

theorem yields_eat_maybe (notEnd : wanted ≠ .eof) :
    Yields reader reading (eat wanted) fun _ => maybe (token wanted) := by
  refine (yields_eat notEnd).mono fun answer => ?_
  cases answer with
  | true => exact le_sup_right
  | false => exact le_sup_left

theorem spells_ignoreEat (notEnd : wanted ≠ .eof) :
    Spells reader (ignore (eat wanted)) fun _ => maybe (token wanted) :=
  fun _ => (yields_eat_maybe notEnd).ignore

theorem Yields.eatSeen (notEnd : wanted ≠ .eof) (seen : (reading.peek 0).kind = wanted)
    (later : Spells reader yes language) :
    Yields reader reading
      (eat wanted >>= fun answer => if answer = true then yes else no)
      fun value => token wanted * language value := by
  intro fits value final read
  obtain ⟨⟨answer, after⟩, readEat, readNext⟩ := Option.bind_eq_some_iff.mp read
  have adds := yields_eat notEnd fits answer after readEat
  have said : answer = true := by
    rw [read?_eat, if_pos seen] at readEat
    obtain ⟨_, -, same⟩ := Option.map_eq_some_iff.mp readEat
    cases same
    rfl
  subst said
  exact adds.trans (later after (fits.onward adds.onward) value final readNext)

/-! ### Faults -/

theorem read?_seesEnd (stops : List TokenKind) (reading : Reading) :
    ∃ answer, (seesEnd stops).read? reader reading = some (answer, reading) := by
  rw [Script.read?_bind,
    show kind.read? reader reading = some ((reading.peek 0).kind, reading) from rfl]
  dsimp only [Option.bind_some]
  split
  · exact ⟨_, rfl⟩
  · split <;> exact ⟨_, rfl⟩

theorem read?_recover (expected stops : List TokenKind) (reading : Reading) :
    (recover expected stops).read? reader reading = none := by
  obtain ⟨answer, looks⟩ : ∃ answer,
      (seesEnd stops).read? reader reading = some (answer, reading) :=
    read?_seesEnd stops reading
  rw [Script.read?_bind, looks]
  cases answer <;> rfl

theorem read?_bind_of_none {next : α → Script β} (fails : first.read? reader reading = none) :
    (first >>= next).read? reader reading = none := by
  rw [Script.read?_bind, fails]
  rfl

theorem spells_expectClosing (bracket : Bracket) :
    Spells reader (expectClosing bracket) fun _ => token (.closing bracket) := by
  intro reading
  have closed : Yields reader reading (expectClosing bracket)
      fun _ => token (.closing bracket) * 1 :=
    .ifTakenOr (yields_eat nofun) (fun _ => yields_pure rfl) fun reading =>
      read?_bind_of_none (read?_recover _ _ reading)
  rwa [mul_one] at closed

/-! ### Depth -/

theorem Reading.Fits.deeper {depth : Nat} (fits : reading.Fits setting) :
    Reading.Fits setting { reading with depth } :=
  ⟨fits.rounds, fits.spaced⟩

theorem read?_enter (yes no : Script α) (reading : Reading) :
    (enter >>= fun entered => if entered = true then yes else no).read? reader reading =
      if reading.depth < maxDepth then
        yes.read? reader { reading with depth := reading.depth + 1 }
      else none := by
  have skips : (recover [] [] >>= fun _ => pure false).read? reader reading = none :=
    read?_bind_of_none (read?_recover [] [] reading)
  rw [enter, Script.read?_bind, Script.read?_bind, Script.read?]
  split
  · rfl
  · exact congrArg (Option.bind · _) skips

theorem read?_of_enter {yes no : Script α} {answer : α}
    (read : (enter >>= fun entered => if entered = true then yes else no).read? reader reading =
      some (answer, after)) :
    yes.read? reader { reading with depth := reading.depth + 1 } = some (answer, after) := by
  rw [read?_enter] at read
  split at read
  · exact read
  · cases read

theorem Yields.enter {yes no : Script α}
    (later : ∀ inner, reading.SeesAs inner → Yields reader inner yes language) :
    Yields reader reading (enter >>= fun entered => if entered = true then yes else no)
      language := by
  intro fits answer after read
  obtain ⟨onward, row⟩ := later { reading with depth := reading.depth + 1 } rfl
    fits.deeper answer after (read?_of_enter read)
  exact ⟨onward, row⟩

theorem Hands.enter {yes no : Script Bool}
    (later : ∀ inner, reading.SeesAs inner → Hands reader inner inner yes accepts) :
    Hands reader reading reading (enter >>= fun entered => if entered = true then yes else no)
      accepts := by
  intro fits answer after read
  obtain ⟨said, onward, last⟩ := later { reading with depth := reading.depth + 1 } rfl
    fits.deeper answer after (read?_of_enter read)
  exact ⟨said, onward, last⟩

theorem Yields.leave {next : Script α}
    (later : ∀ inner, reading.SeesAs inner → Yields reader inner next language) :
    Yields reader reading (Script.leave >>= fun _ => next) language := by
  intro fits answer after read
  obtain ⟨onward, row⟩ := later { reading with depth := reading.depth - 1 } rfl
    fits.deeper answer after read
  exact ⟨onward, row⟩

theorem Yields.thenLeave {first : Script α} (head : Yields reader reading first fun _ => left) :
    Yields reader reading (first >>= fun _ => Script.leave) fun _ => left := by
  intro fits _ after read
  obtain ⟨⟨_, inner⟩, readFirst, same⟩ := Option.bind_eq_some_iff.mp read
  cases same
  obtain ⟨onward, row⟩ := head fits _ inner readFirst
  exact ⟨onward, row⟩

theorem Hands.thenLeave {body : Script Bool} (head : Hands reader reading reading body accepts) :
    Hands reader reading reading (do
      let finished ← body
      Script.leave
      pure finished) accepts := by
  intro fits answer after read
  obtain ⟨⟨_, inner⟩, readFirst, same⟩ := Option.bind_eq_some_iff.mp read
  cases same
  obtain ⟨said, onward, last⟩ := head fits _ inner readFirst
  exact ⟨said, onward, last⟩

/-! ### Nodes -/

theorem read?_node {body : Script (Option NodeKind)} {answer : Bool}
    (read : (Script.node body).read? reader reading = some (answer, after)) :
    ∃ outer, reading.takeTrivia? = some outer ∧ ∃ kind? inner,
      body.read? reader { outer with row := [] } = some (kind?, inner) ∧
      match kind? with
      | some kind => answer = true ∧ after = inner.close kind outer.row
      | none => answer = false ∧ after = { inner with row := inner.row ++ outer.row } := by
  obtain ⟨outer, trivia, read⟩ := Option.bind_eq_some_iff.mp read
  obtain ⟨⟨kind?, inner⟩, readBody, same⟩ := Option.map_eq_some_iff.mp read
  refine ⟨outer, trivia, kind?, inner, readBody, ?_⟩
  cases kind? with
  | none =>
    cases same
    exact ⟨rfl, rfl⟩
  | some kind =>
    cases same
    exact ⟨rfl, rfl⟩

section NodeBodies

variable {body : Script (Option NodeKind)} {languages : Option NodeKind → Language Shape}
  (later : ∀ inner, reading.SeesAs inner → Yields reader inner body languages)
  (produced : ∀ kind, languages (some kind) ≤ rowsOf (reading.table? reader.setting) kind)
  (unnamed : languages (some .moduleName) = 0)
include later produced unnamed

theorem Yields.node_cases (fits : reading.Fits reader.setting) {answer : Bool}
    (read : (Script.node body).read? reader reading = some (answer, after)) :
    (∃ kind, answer = true ∧
        Holding reader.setting reading after (Holds kind (languages (some kind)))) ∨
      (answer = false ∧ Adds reader.setting reading after (languages none)) := by
  obtain ⟨outer, trivia, kind?, inner, readBody, closed⟩ := read?_node read
  obtain ⟨-, onOuter, sameSights, blanks, shapeless, row⟩ :=
    Reading.takeTrivia?_eq_some reader.setting trivia
  have opens : reading.Onward reader.setting { outer with row := [] } := onOuter
  obtain ⟨onward, new, rowInner, spelled, formed⟩ :=
    later { outer with row := [] } sameSights (fits.onward opens) kind? inner readBody
  rw [List.append_nil] at rowInner
  rw [opens.table] at formed
  cases kind? with
  | none =>
    obtain ⟨rfl, rfl⟩ := closed
    have shapes : Shape.Row.shapes (new ++ blanks) = Shape.Row.shapes new := by
      rw [Shape.Row.shapes_append, shapeless, List.nil_append]
    refine .inr ⟨rfl, opens.trans onward, new ++ blanks, ?_, ?_, ?_⟩
    · rw [rowInner, row, List.append_assoc]
    · rw [shapes]
      exact spelled
    · rw [shapes]
      exact formed
  | some kind =>
    obtain ⟨rfl, rfl⟩ := closed
    rw [← rowInner] at spelled formed
    have onward := opens.trans onward
    refine .inl ⟨kind, rfl, onward.close ?_, .node kind inner.row.shapes, blanks,
      ⟨_, rfl, spelled⟩, .node (produced kind spelled) formed, shapeless, ?_⟩
    · rintro rfl
      rw [unnamed] at spelled
      exact absurd spelled (Language.notMem_zero _)
    · rw [Reading.close, row]

theorem Hands.node (never : languages none = 0)
    (accepted : ∀ kind shape, Holds kind (languages (some kind)) shape → accepts shape) :
    Hands reader reading reading (Script.node body) accepts := by
  intro fits answer after read
  rcases Yields.node_cases later produced unnamed fits read with ⟨kind, rfl, holding⟩ | ⟨-, adds⟩
  · exact ⟨rfl, holding.mono (accepted kind)⟩
  · obtain ⟨-, new, -, spelled, -⟩ := adds
    rw [never] at spelled
    exact absurd spelled (Language.notMem_zero _)

end NodeBodies

theorem Hands.nodeOf {kind : NodeKind} {body : Script Unit}
    (later : ∀ inner, reading.SeesAs inner → Yields reader inner body fun _ => left)
    (produced : left ≤ production kind) [simple_ : Decided (isSimple kind)] :
    Hands reader reading reading (nodeOf kind body) (Holds kind left) := by
  have named : ∀ inner, reading.SeesAs inner →
      Yields reader inner (body >>= fun _ => pure (some kind))
        fun answer => if answer = some kind then left else 0 := by
    intro inner sights
    refine (later inner sights).answer ?_
    rw [if_pos rfl]
  refine Hands.node named (fun other => ?_) (if_neg ?_) rfl fun other shape holds => ?_
  · split
    · next same =>
        cases same
        exact produced.trans (production_le_rowsOf simple_.holds _)
    · exact bot_le
  · rintro ⟨⟩
    cases simple_.holds
  · obtain ⟨row, rfl, member⟩ := holds
    split at member
    · next same =>
        cases same
        exact ⟨row, rfl, member⟩
    · exact absurd member (Language.notMem_zero _)

theorem Yields.inside {kind : NodeKind} {body : Script Unit}
    (later : ∀ inner, reading.SeesAs inner → Yields reader inner body fun _ => left)
    (produced : left ≤ production kind) [simple_ : Decided (isSimple kind)] :
    Yields reader reading (inside kind body) fun _ => nodeWith kind left :=
  (Hands.nodeOf later produced).yields.ignore

theorem Yields.insideToken {kind : NodeKind} (accepts : Sight → Bool)
    (accepted : accepts (reading.peek 0) = true) (notEnd : (reading.peek 0).kind ≠ .eof)
    (produced : tokenWhere accepts ≤ rowsOf (reading.table? reader.setting) kind) :
    Yields reader reading (Grammar.inside kind Script.bump)
      fun _ => nodeWith kind (tokenWhere accepts) := by
  intro fits answer after read
  obtain ⟨⟨_, _⟩, readNode, same⟩ := Option.bind_eq_some_iff.mp read
  cases same
  obtain ⟨outer, trivia, kind?, inner, readBody, closed⟩ := read?_node readNode
  obtain ⟨-, opens, sights, blanks, blank, row⟩ :=
    Reading.takeTrivia?_eq_some reader.setting trivia
  obtain ⟨⟨_, last⟩, readBump, same⟩ := Option.bind_eq_some_iff.mp readBody
  cases same
  obtain ⟨rfl, rfl⟩ := closed
  obtain ⟨_, bumped, same⟩ := Option.map_eq_some_iff.mp readBump
  cases same
  rw [← sights] at accepted notEnd
  have nonempty := Reading.ahead_ne_nil notEnd
  obtain ⟨onward, new, rowInner, spelled, formed⟩ :=
    @adds_bump reader.setting { outer with row := [] } last accepts accepted nonempty bumped
  have single := Reading.length_row_bump? trivia nonempty bumped
  rw [List.append_nil] at rowInner
  rw [← rowInner] at spelled formed
  have table : Reading.table? reader.setting { outer with row := [] } =
      reading.table? reader.setting := opens.table
  rw [table] at formed
  have holding : Holding reader.setting reading (last.close kind outer.row)
      (Holds kind (tokenWhere accepts)) :=
    ⟨(opens.trans onward).close fun _ => single, .node kind last.row.shapes, blanks,
      ⟨_, rfl, spelled⟩, .node (produced spelled) formed, blank, by rw [Reading.close, row]⟩
  exact holding.adds

theorem fewer_inside {kind : NodeKind} {body : Script Unit} (fits : reading.Fits reader.setting)
    (later : ∀ inner last, reading.SeesAs inner → inner.Fits reader.setting →
      body.read? reader inner = some ((), last) →
        last.kinds.length < inner.kinds.length)
    (read : (inside kind body).read? reader reading = some ((), after)) :
    after.kinds.length < reading.kinds.length := by
  obtain ⟨⟨answer, _⟩, readNode, same⟩ := Option.bind_eq_some_iff.mp read
  cases same
  obtain ⟨outer, trivia, kind?, inner, readBody, closed⟩ := read?_node readNode
  obtain ⟨sameKinds, -, sameSights, -⟩ := Reading.takeTrivia?_eq_some reader.setting trivia
  obtain ⟨⟨_, last⟩, readOnce, same⟩ := Option.bind_eq_some_iff.mp readBody
  cases same
  obtain ⟨rfl, rfl⟩ := closed
  have opened : Reading.Fits reader.setting { outer with row := [] } := by
    obtain ⟨rounds, spaced⟩ := fits
    rw [← sameKinds] at rounds spaced
    exact ⟨rounds, spaced⟩
  rw [← sameKinds]
  exact later { outer with row := [] } last sameSights opened readOnce

theorem Hands.single {kind : NodeKind} (accepts : Sight → Bool)
    (accepted : accepts (reading.peek 0) = true) (notEnd : (reading.peek 0).kind ≠ .eof)
    (produced : tokenWhere accepts ≤ production kind) [simple_ : Decided (isSimple kind)] :
    Hands reader reading reading (single kind) (Holds kind (tokenWhere accepts)) := by
  refine Hands.nodeOf (fun inner sights => Yields.last accepts ?_ ?_) produced
  · rw [sights]
    exact accepted
  · rw [sights]
    exact notEnd

section Wraps

variable {before : Reading} {accepts wider : Shape → Prop}

theorem hands_pure (holding : Holding reader.setting before reading accepts) :
    Hands reader before reading (pure true) accepts := by
  intro _ answer after read
  cases read
  exact ⟨rfl, holding⟩

theorem Hands.bind {first : Script Bool} {next : Bool → Script Bool}
    (head : Hands reader before reading first accepts)
    (later : ∀ after, Holding reader.setting before after accepts →
      Hands reader before after (next true) wider) :
    Hands reader before reading (first >>= next) wider := by
  intro fits answer final read
  obtain ⟨⟨said, after⟩, readFirst, readNext⟩ := Option.bind_eq_some_iff.mp read
  obtain ⟨rfl, holding⟩ := head fits said after readFirst
  exact later after holding fits answer final readNext

variable {body : Script Unit}

theorem Holding.wrapOf {kind : NodeKind} (holding : Holding reader.setting before reading accepts)
    (fits : before.Fits reader.setting)
    (later : ∀ row, Yields reader { reading with row } body fun _ => left)
    (produced : one accepts * left ≤ rowsOf (before.table? reader.setting) kind)
    (unnamed : kind ≠ .moduleName)
    (read : (Script.wrap kind body).read? reader reading = some ((), after)) :
    Holding reader.setting before after (Holds kind (one accepts * left)) := by
  obtain ⟨onward, shape, blanks, accepted, formed, shapeless, row⟩ := holding
  rw [Script.read?, row] at read
  obtain ⟨⟨_, inner⟩, readBody, same⟩ := Option.map_eq_some_iff.mp read
  cases same
  obtain ⟨onInner, new, rowInner, spelled, formedNew⟩ :=
    later [some shape] (fits.onward onward) () inner readBody
  have formedNew : ∀ shape ∈ new.shapes, shape.Formed (before.table? reader.setting) := by
    rw [← onward.table]
    exact formedNew
  have shapes : inner.row.shapes = shape :: Shape.Row.shapes new := by
    rw [rowInner, Shape.Row.shapes_append]
    rfl
  have whole : inner.row.shapes ∈ one accepts * left := by
    rw [shapes]
    exact Language.append_mem_mul (a := [shape]) ⟨shape, accepted, rfl⟩ spelled
  refine ⟨(onward.trans onInner).close fun named => absurd named unnamed,
    .node kind inner.row.shapes, blanks, ⟨_, rfl, whole⟩, .node (produced whole) ?_, shapeless, rfl⟩
  intro child member
  rw [shapes] at member
  rcases List.mem_cons.mp member with rfl | later
  · exact formed
  · exact formedNew child later

theorem Holding.wrap {kind : NodeKind} (holding : Holding reader.setting before reading accepts)
    (fits : before.Fits reader.setting)
    (later : ∀ inner, reading.SeesAs inner → Yields reader inner body fun _ => left)
    (produced : one accepts * left ≤ production kind)
    (read : (Script.wrap kind body).read? reader reading = some ((), after))
    [simple_ : Decided (isSimple kind)] :
    Holding reader.setting before after (Holds kind (one accepts * left)) :=
  holding.wrapOf fits (fun _ => later _ rfl)
    (produced.trans (production_le_rowsOf simple_.holds _))
    (by rintro rfl; cases simple_.holds) read

theorem Hands.wrap {kind : NodeKind} {next : Unit → Script Bool}
    (holding : Holding reader.setting before reading accepts)
    (inside : ∀ inner, reading.SeesAs inner → Yields reader inner body fun _ => left)
    (produced : one accepts * left ≤ production kind)
    (later : ∀ after, Holding reader.setting before after (Holds kind (one accepts * left)) →
      Hands reader before after (next ()) wider) [simple_ : Decided (isSimple kind)] :
    Hands reader before reading (Script.wrap kind body >>= next) wider := by
  intro fits answer final read
  obtain ⟨⟨_, after⟩, readWrap, readNext⟩ := Option.bind_eq_some_iff.mp read
  exact later after (holding.wrap fits inside produced readWrap) fits answer final readNext

theorem Hands.suffixed {first : Script Bool} {kind : NodeKind}
    (head : Hands reader reading reading first accepts)
    (inside : ∀ inner, (inner.peek 0).kind = wanted →
      Yields reader inner body fun _ => left)
    (produced : one accepts * left ≤ production kind)
    (implies : ∀ shape, accepts shape → wider shape)
    (closed : ∀ shape, Holds kind (one accepts * left) shape → wider shape)
    [simple_ : Decided (isSimple kind)] :
    Hands reader reading reading (do
      let finished ← first
      if (← sees wanted) then
        around finished kind body
        pure true
      else pure finished) wider := by
  refine head.bind fun after holding => ?_
  refine Hands.look rfl ?_
  split
  · next seen =>
      refine Hands.wrap holding (fun inner sights => inside inner ?_) produced
        (fun final wrapped => hands_pure (wrapped.mono closed))
      rw [sights]
      exact of_decide_eq_true seen
  · exact hands_pure (holding.mono implies)

theorem Hands.wrapped {first test : Script Bool} {kind : NodeKind} {asks : (Nat → Sight) → Bool}
    (head : Hands reader reading reading first accepts) (watches : Watches reader test asks)
    (inside : ∀ inner, asks inner.peek = true → Yields reader inner body fun _ => left)
    (produced : one accepts * left ≤ production kind)
    (implies : ∀ shape, accepts shape → wider shape)
    (closed : ∀ shape, Holds kind (one accepts * left) shape → wider shape)
    [simple_ : Decided (isSimple kind)] :
    Hands reader reading reading (do
      if (← first) then
        if (← test) then Script.wrap kind body
        pure true
      else pure false) wider := by
  refine head.bind fun after holding => ?_
  refine Hands.look (watches after) ?_
  cases asked : asks after.peek with
  | true =>
    refine Hands.wrap holding (fun inner sights => inside inner ?_) produced
      (fun final wrapped => hands_pure (wrapped.mono closed))
    rw [sights, asked]
  | false => exact hands_pure (holding.mono implies)

end Wraps

/-! ### Loops -/

section Loops

variable {σ : Type} {round : σ → Reading → Option (ForInStep σ × Reading)}

variable {final : σ}

/--
What holds of a loop whose rounds take a token each unless they are the last:
it is never cut short.  That may be known only of the rounds that start where
something is kept.
-/
theorem iterate?_induct (keeps : σ → Reading → Prop) (holds : σ → Reading → σ → Reading → Prop)
    (done : ∀ value reading final after, keeps value reading →
      round value reading = some (.done final, after) → holds value reading final after)
    (yielded : ∀ value reading next after, keeps value reading →
      round value reading = some (.yield next, after) →
        keeps next after ∧ after.kinds.length < reading.kinds.length ∧
          ∀ final last, holds next after final last → holds value reading final last)
    (bound : Nat) (value : σ) (reading : Reading) (starts : keeps value reading)
    (enough : reading.kinds.length < bound) {last : Reading}
    (read : iterate? round bound value reading = some (final, last)) :
    holds value reading final last := by
  induction bound generalizing value reading with
  | zero => exact absurd enough (Nat.not_lt_zero _)
  | succ bound ih =>
    obtain ⟨⟨step, after⟩, once, rest⟩ := Option.bind_eq_some_iff.mp read
    cases step with
    | done answer =>
      cases rest
      exact done value reading final last starts once
    | yield next =>
      obtain ⟨kept, fewer, back⟩ := yielded value reading next after starts once
      exact back final last (ih next after kept (by omega) rest)

theorem iterate?_keeps (keeps : σ → Reading → Prop)
    (once : ∀ value reading step after, keeps value reading →
      round value reading = some (step, after) → keeps step.value after) (bound : Nat) (value : σ)
    (reading : Reading) (holds : keeps value reading) {last : Reading}
    (read : iterate? round bound value reading = some (final, last)) : keeps final last := by
  induction bound generalizing value reading with
  | zero =>
    cases read
    exact holds
  | succ bound ih =>
    obtain ⟨⟨step, after⟩, readRound, rest⟩ := Option.bind_eq_some_iff.mp read
    have kept := once value reading step after holds readRound
    cases step with
    | done answer =>
      cases rest
      exact kept
    | yield next => exact ih next after kept rest

end Loops

/-- The language of a round that adds a word and goes on, or adds nothing and ends. -/
def roundOf (left : Language Shape) : ForInStep Unit → Language Shape
  | .done _ => 1
  | .yield _ => left

theorem adds_iterate? {round : Unit → Script (ForInStep Unit)}
    (once : Spells reader (round ()) (roundOf left)) {bound : Nat} {last : Reading}
    (fits : reading.Fits reader.setting)
    (read : iterate? (fun value => (round value).read? reader) bound () reading =
      some ((), last)) : Adds reader.setting reading last left∗ := by
  have start : Adds reader.setting reading reading left∗ := (Adds.refl reading).mono one_le_kstar
  refine iterate?_keeps (fun _ after => Adds reader.setting reading after left∗)
    (fun _ after step final adds readRound => ?_) bound () reading start read
  have added := once after (fits.onward adds.onward) _ final readRound
  refine (adds.trans added).mono ?_
  cases step with
  | done => rw [roundOf, mul_one]
  | yield => exact kstar_mul_le_kstar

theorem Spells.loop {round : Unit → Script (ForInStep Unit)}
    (once : Spells reader (round ()) (roundOf left)) :
    Spells reader (Script.loop () round) fun _ => left∗ :=
  fun _ fits _ _ read => adds_iterate? once fits read

section WhileSeen

variable {test : Script Bool} {body : Script Unit} {asks : (Nat → Sight) → Bool}

theorem spells_whileRound (watches : Watches reader test asks)
    (later : ∀ reading, asks reading.peek = true →
      Yields reader reading body fun _ => left) :
    Spells reader (test >>= fun answer => if answer = true then
      body >>= fun _ => pure (ForInStep.yield ()) else pure (.done ())) (roundOf left) :=
  fun reading => Yields.test watches (fun asked => (later reading asked).answer le_rfl)
    fun _ => yields_pure rfl

theorem spells_whileSeen (watches : Watches reader test asks)
    (later : ∀ reading, asks reading.peek = true →
      Yields reader reading body fun _ => left) :
    Spells reader (whileSeen test body) fun _ => left∗ :=
  Spells.loop (spells_whileRound watches later)

theorem Yields.whileSeen (watches : Watches reader test asks) (seen : asks reading.peek = true)
    (later : ∀ reading, asks reading.peek = true →
      Yields reader reading body fun _ => left) :
    Yields reader reading (Grammar.whileSeen test body) fun _ => many left := by
  intro fits _ last read
  obtain ⟨bound, rounds⟩ := Nat.exists_eq_succ_of_ne_zero (Nat.ne_zero_of_lt fits.rounds)
  rw [Script.read?, rounds, iterate?, Script.read?_bind, watches reading, seen] at read
  obtain ⟨⟨step, after⟩, readRound, readRest⟩ := Option.bind_eq_some_iff.mp read
  have unfolded : (body >>= fun _ => pure (ForInStep.yield ())).read? reader reading =
    some (step, after) := readRound
  obtain ⟨⟨_, middle⟩, readBody, same⟩ := Option.bind_eq_some_iff.mp unfolded
  cases same
  have adds := later reading seen fits () middle readBody
  exact adds.trans (adds_iterate? (spells_whileRound watches later) (fits.onward adds.onward)
    readRest)

end WhileSeen

def yieldOf (left : Language Shape) : ForInStep Unit → Language Shape
  | .done _ => 0
  | .yield _ => left

def doneOf (left : Language Shape) : ForInStep Unit → Language Shape
  | .done _ => left
  | .yield _ => 0

theorem spells_whileEat {body : Script Unit} (notEnd : wanted ≠ .eof)
    (later : Spells reader body fun _ => left) :
    Spells reader (whileSeen (eat wanted) body) fun _ => (token wanted * left)∗ := by
  have onward : Spells reader (body >>= fun _ => pure (ForInStep.yield ()))
      (yieldOf left) := fun reading => (later reading).answer le_rfl
  have ends : Spells reader (pure (ForInStep.done ())) (doneOf 1) :=
    fun _ => yields_pure rfl
  have once : Spells reader (eat wanted >>= fun answer =>
      if answer = true then body >>= fun _ => pure (ForInStep.yield ())
      else pure (ForInStep.done ())) (roundOf (token wanted * left)) := by
    intro reading
    refine (Yields.ifEat notEnd onward ends).mono fun step => ?_
    cases step <;> simp [roundOf, yieldOf, doneOf]
  exact Spells.loop once

theorem read?_eat_true (notEnd : wanted ≠ .eof)
    (read : (eat wanted).read? reader reading = some (true, after)) :
    reading.kinds = wanted :: after.kinds := by
  rw [read?_eat] at read
  split at read
  · next seen =>
      obtain ⟨onward, bumped, same⟩ := Option.map_eq_some_iff.mp read
      cases same
      obtain ⟨kinds, -⟩ := Reading.bump?_eq_some reader.setting bumped
        (Reading.ahead_ne_nil (by rw [seen]; exact notEnd))
      rw [kinds, seen]
  · cases read

theorem spells_joined {joint : Script (ForInStep Unit)} (later : Spells reader item fun _ => left)
    (between : Spells reader joint (roundOf right))
    (fewer : ∀ reading after, reading.Fits reader.setting →
      joint.read? reader reading = some (.yield (), after) →
        after.kinds.length < reading.kinds.length) :
    Spells reader (Script.loop () fun _ => item >>= fun _ => joint)
      fun _ => left * (right * left)∗ := by
  intro reading fits final last read
  refine iterate?_induct (fun _ => Reading.Fits reader.setting)
    (fun _ start _ final => Adds reader.setting start final _)
    (fun _ start _ after fits readRound => ?_) (fun _ start _ after fits readRound => ?_)
    reader.setting.rounds () reading fits fits.rounds read
  · obtain ⟨⟨_, middle⟩, readItem, readJoint⟩ := Option.bind_eq_some_iff.mp readRound
    have adds := later start fits () middle readItem
    have ends := between middle (fits.onward adds.onward) _ after readJoint
    exact (adds.trans ends).mono (mul_le_mul_right one_le_kstar _)
  · obtain ⟨⟨_, middle⟩, readItem, readJoint⟩ := Option.bind_eq_some_iff.mp readRound
    have adds := later start fits () middle readItem
    have taken := between middle (fits.onward adds.onward) _ after readJoint
    have shorter := fewer middle after (fits.onward adds.onward) readJoint
    refine ⟨fits.onward (adds.onward.trans taken.onward),
      Nat.lt_of_lt_of_le shorter adds.onward.kept.length_le, fun _ last rest => ?_⟩
    refine (adds.trans (taken.trans rest)).mono ?_
    rw [roundOf, ← mul_assoc right]
    exact mul_le_mul_right mul_kstar_le_kstar _

theorem spells_separated {separator : TokenKind} (notEnd : separator ≠ .eof)
    (later : Spells reader item fun _ => left) :
    Spells reader (Grammar.separated separator item)
      fun _ => Phrase.separated separator left := by
  refine spells_joined later (fun reading => ?_) fun reading after _ read => ?_
  · have onward : Spells reader (pure (ForInStep.yield ())) (yieldOf 1) :=
      fun _ => yields_pure rfl
    have ends : Spells reader (pure (ForInStep.done ())) (doneOf 1) :=
      fun _ => yields_pure rfl
    refine (Yields.ifEat notEnd onward ends).mono fun step => ?_
    cases step <;> simp [roundOf, yieldOf, doneOf]
  · obtain ⟨⟨answer, middle⟩, readEat, same⟩ := Option.bind_eq_some_iff.mp read
    cases answer with
    | true =>
      cases same
      rw [read?_eat_true notEnd readEat]
      exact Nat.lt_succ_self _
    | false => cases same

/-! ### Blocks -/

theorem read?_progress (read : (progress item).read? reader reading = some ((), after)) :
    item.read? reader reading = some ((), after) ∧
      after.position ≠ reading.position := by
  have unfolded : (item >>= fun _ => Script.position >>= fun reached =>
      if reached = reading.position then misfit [] else pure ()).read? reader reading =
        some ((), after) := read
  obtain ⟨⟨_, middle⟩, readItem, readRest⟩ := Option.bind_eq_some_iff.mp unfolded
  change (if middle.position = reading.position then misfit [] else pure ()).read? reader middle =
    some ((), after) at readRest
  split at readRest
  · cases readRest
  · next moved =>
      cases readRest
      exact ⟨readItem, moved⟩

theorem read?_itemThen {next fails : Script α} {value : α} {last : Reading}
    (later : Spells reader item fun _ => left) (fits : reading.Fits reader.setting)
    (failing : ∀ reading, fails.read? reader reading = none)
    (read : (progress item >>= fun _ => seesAny itemEnds >>= fun answer =>
      if answer = true then next else fails).read? reader reading = some (value, last)) :
    ∃ after, Adds reader.setting reading after left ∧ after.kinds.length < reading.kinds.length ∧
      (after.peek 0).kind ∈ itemEnds ∧
        next.read? reader after = some (value, last) := by
  obtain ⟨⟨_, after⟩, readItem, readRest⟩ := Option.bind_eq_some_iff.mp read
  obtain ⟨readOnce, moved⟩ := read?_progress readItem
  have adds := later reading fits () after readOnce
  rw [Script.read?_bind, watches_seesAny itemEnds after] at readRest
  dsimp only [Option.bind_some] at readRest
  split at readRest
  · next ends =>
      refine ⟨after, adds, ?_, List.contains_iff_mem.mp ends, readRest⟩
      have counted := adds.onward.counted
      have shorter := adds.onward.kept.length_le
      omega
  · rw [failing] at readRest
    cases readRest

def blockTail (item : Language Shape) : Language Shape :=
  (token .layoutSep * item)∗ * token .layoutEnd

theorem item_mul_blockTail (item : Language Shape) :
    item * blockTail item = items item * token .layoutEnd := by
  rw [blockTail, items, Phrase.separated, mul_assoc]

/-- What may still come in a block, by the kind of the token ahead. -/
def blockRest (item : Language Shape) (ahead : TokenKind) : Language Shape :=
  if ahead = .layoutEnd then token .layoutEnd
  else if ahead = .layoutSep then blockTail item
  else item * blockTail item

theorem blockRest_le_blockTail {item : Language Shape} {ahead : TokenKind}
    (mark : ahead = .layoutSep ∨ ahead = .layoutEnd) : blockRest item ahead ≤ blockTail item := by
  rcases mark with rfl | rfl
  · exact le_rfl
  · exact le_mul_of_one_le_left' one_le_kstar

theorem blockRest_of_content {item : Language Shape} {ahead : TokenKind}
    (notSep : ahead ≠ .layoutSep) (notEnd : ahead ≠ .layoutEnd) :
    blockRest item ahead = item * blockTail item := by
  rw [blockRest, if_neg notEnd, if_neg notSep]

theorem Reading.Fits.follows {kind : TokenKind} (fits : reading.Fits setting)
    (kinds : reading.kinds = kind :: after.kinds) : Follows kind (after.peek 0).kind := by
  obtain ⟨rest, ahead⟩ := Reading.kinds_append_eof after
  have spaced := fits.spaced
  rw [kinds, List.cons_append, ahead, List.isChain_cons_cons] at spaced
  exact spaced.1

theorem peek_of_separator (fits : reading.Fits setting)
    (kinds : reading.kinds = .layoutSep :: after.kinds) : (after.peek 0).kind ∉ itemEnds := by
  have significant := (fits.follows kinds).1 rfl
  intro isEnd
  rw [itemEnds, List.mem_cons, List.mem_cons, List.mem_singleton] at isEnd
  rcases isEnd with other | other | other <;> rw [other] at significant <;> cases significant

theorem peek_of_start (fits : reading.Fits setting)
    (kinds : reading.kinds = .layoutStart :: after.kinds) : (after.peek 0).kind ≠ .layoutSep := by
  intro other
  rcases (fits.follows kinds).2 rfl with isEnd | significant
  · rw [other] at isEnd
    cases isEnd
  · rw [other] at significant
    cases significant

section Blocks

variable {item : Script Unit} {required : Option (List TokenKind)}

variable (setting : Setting) (item : Language Shape) (required empty : Bool)
  (reading after : Reading) in
/-- What one round of a block can do. -/
inductive BlockStep 
    : ForInStep Bool → Prop where
  /-- The end of the block is taken. -/
  | stop (ahead : (reading.peek 0).kind = .layoutEnd) (filled : required = true → empty = false)
      (adds : Adds setting reading after (token .layoutEnd)) :
      BlockStep (.done empty)
  /-- A separator is taken. -/
  | separator (ahead : (reading.peek 0).kind = .layoutSep)
      (kinds : reading.kinds = .layoutSep :: after.kinds)
      (adds : Adds setting reading after (token .layoutSep)) :
      BlockStep (.yield empty)
  /-- An item is taken, which ends where items end. -/
  | content (ahead : (reading.peek 0).kind ∉ itemEnds) (adds : Adds setting reading after item)
      (fewer : after.kinds.length < reading.kinds.length) (ends : (after.peek 0).kind ∈ itemEnds) :
      BlockStep (.yield false)

variable {empty : Bool} {start : Reading}

theorem read?_blockRound (later : Spells reader item fun _ => left) {step : ForInStep Bool}
    (fits : reading.Fits reader.setting)
    (read : (blockRound item required empty).read? reader reading = some (step, after)) :
    BlockStep reader.setting left required.isSome empty reading after step := by
  rw [blockRound, Script.read?_bind, watches_kind reading] at read
  dsimp only [Option.bind_some] at read
  split at read
  · next atEnd =>
      have stopped : (ignore (expect .layoutEnd) >>= fun _ =>
            pure (ForInStep.done empty)).read? reader reading = some (step, after) ∧
          (required.isSome = true → empty = false) := by
        cases required with
        | none => exact ⟨read, by rintro ⟨⟩⟩
        | some first =>
          cases empty with
          | true => cases read
          | false => exact ⟨read, fun _ => rfl⟩
      obtain ⟨readStop, filled⟩ := stopped
      obtain ⟨⟨_, middle⟩, readEnd, same⟩ := Option.bind_eq_some_iff.mp readStop
      cases same
      have taken : Yields reader reading (ignore (expect .layoutEnd))
          fun _ => token .layoutEnd :=
        Yields.ignore (yields_expect (by rintro ⟨⟩))
      refine .stop ?_ filled (taken fits () middle readEnd)
      obtain ⟨⟨_, onward⟩, readExpect, -⟩ := Option.bind_eq_some_iff.mp readEnd
      have eaten := (read?_eat_of_expect readExpect).2
      rw [read?_eat] at eaten
      split at eaten
      · assumption
      · cases eaten
  · next notEnd =>
      rw [Bool.or_eq_true, decide_eq_true_eq, decide_eq_true_eq, not_or] at notEnd
      split at read
      · next isSep =>
          obtain ⟨⟨_, middle⟩, readBump, same⟩ := Option.bind_eq_some_iff.mp read
          cases same
          have taken : Yields reader reading Script.bump fun _ => token .layoutSep :=
            .last (fun sight => sight.kind = .layoutSep) (decide_eq_true isSep) notEnd.2
          obtain ⟨onward, bumped, same⟩ := Option.map_eq_some_iff.mp readBump
          cases same
          obtain ⟨kinds, -⟩ :=
            Reading.bump?_eq_some reader.setting bumped (Reading.ahead_ne_nil notEnd.2)
          rw [isSep] at kinds
          exact .separator isSep kinds (taken fits () _ readBump)
      · next notSep =>
          obtain ⟨middle, adds, fewer, ends, readRest⟩ := read?_itemThen later fits
            (fun reading => read?_bind_of_none (read?_recover _ _ reading)) read
          cases readRest
          refine .content ?_ adds fewer ends
          simp [itemEnds, notEnd, notSep]

/--
What a block adds from a reading on: it ends with the end of the block, and a
block that must not be empty has an item before that.
-/
structure BlockRuns (setting : Setting) (item : Language Shape) (required empty : Bool)
    (start last : Reading) : Prop where
  notEof : (start.peek 0).kind ≠ .eof
  filled : (start.peek 0).kind = .layoutEnd → required = true → empty = false
  adds : Adds setting start last (blockRest item (start.peek 0).kind)

theorem BlockStep.runs {final : Bool} {last : Reading}
    (step : BlockStep setting left required.isSome empty start last (.done final)) :
    BlockRuns setting left required.isSome empty start last := by
  cases step with
  | stop ahead filled adds =>
    refine ⟨?_, fun _ => filled, adds.mono ?_⟩
    · rw [ahead]
      exact fun other => nomatch other
    · rw [ahead]
      exact le_rfl

theorem BlockStep.fewer {next : Bool}
    (step : BlockStep setting left required.isSome empty start after (.yield next)) :
    start.Onward setting after ∧ after.kinds.length < start.kinds.length := by
  cases step with
  | separator ahead kinds adds =>
    refine ⟨adds.onward, ?_⟩
    rw [kinds]
    exact Nat.lt_succ_self _
  | content ahead adds fewer ends => exact ⟨adds.onward, fewer⟩

theorem BlockStep.runs_of_runs {next : Bool} {last : Reading}
    (step : BlockStep setting left required.isSome empty start after (.yield next))
    (fits : start.Fits setting) (runs : BlockRuns setting left required.isSome next after last) :
    BlockRuns setting left required.isSome empty start last := by
  cases step with
  | separator ahead kinds adds =>
    have starts := peek_of_separator fits kinds
    rw [itemEnds, List.mem_cons, List.mem_cons, not_or, not_or] at starts
    have rest := runs.adds
    rw [blockRest_of_content starts.1 starts.2.1] at rest
    refine ⟨?_, ?_, (adds.trans rest).mono ?_⟩
    · rw [ahead]
      exact fun other => nomatch other
    · rw [ahead]
      exact fun other => nomatch other
    · rw [ahead]
      rw [blockTail, ← mul_assoc, ← mul_assoc]
      exact mul_le_mul_left mul_kstar_le_kstar _
  | content ahead adds fewer ends =>
    rw [itemEnds, List.mem_cons, List.mem_cons, List.mem_singleton, not_or, not_or] at ahead
    have mark : (after.peek 0).kind = .layoutSep ∨ (after.peek 0).kind = .layoutEnd := by
      simpa [itemEnds, runs.notEof] using ends
    have rest := runs.adds.mono (blockRest_le_blockTail mark)
    refine ⟨ahead.2.2, fun isEnd => absurd isEnd ahead.2.1, ?_⟩
    rw [blockRest_of_content ahead.1 ahead.2.1]
    exact adds.trans rest

theorem blockRuns_of_read? (later : Spells reader item fun _ => left) {final : Bool}
    {last : Reading} (fits : reading.Fits reader.setting)
    (read : (Script.loop true (blockRound item required)).read? reader reading =
      some (final, last)) : BlockRuns reader.setting left required.isSome true reading last := by
  refine iterate?_induct (fun _ => Reading.Fits reader.setting)
    (fun empty start _ last => BlockRuns reader.setting left required.isSome empty start last)
    (fun empty start final after fits once => ?_)
    (fun empty start next after fits once => ?_) reader.setting.rounds true reading fits fits.rounds
    read
  · exact (read?_blockRound later fits once).runs
  · have step := read?_blockRound later fits once
    exact ⟨fits.onward step.fewer.1, step.fewer.2, fun _ _ => step.runs_of_runs fits⟩

theorem adds_block (later : Spells reader item fun _ => left) {last : Reading}
    (fits : reading.Fits reader.setting)
    (read : (Grammar.block item required).read? reader reading = some ((), last)) :
    Adds reader.setting reading last
      (if required.isSome = true then someBlock left else Phrase.block left) := by
  obtain ⟨⟨answer, after⟩, readStart, readLoop⟩ := Option.bind_eq_some_iff.mp read
  have started : Yields reader reading (expect .layoutStart)
      fun _ => token .layoutStart := yields_expect fun other => nomatch other
  have adds := started fits answer after readStart
  obtain ⟨rfl, eaten⟩ := read?_eat_of_expect readStart
  obtain ⟨⟨final, inner⟩, readInner, same⟩ := Option.bind_eq_some_iff.mp readLoop
  cases same
  have runs := blockRuns_of_read? later (fits.onward adds.onward) readInner
  have notSep := peek_of_start fits (read?_eat_true (by decide) eaten)
  refine (adds.trans runs.adds).mono ?_
  by_cases atEnd : (after.peek 0).kind = .layoutEnd
  · have mayBeEmpty : ¬ required.isSome = true := fun needed => nomatch runs.filled atEnd needed
    rw [if_neg mayBeEmpty, atEnd]
    refine mul_le_mul_right ?_ _
    exact le_mul_of_one_le_left' le_sup_left
  · rw [blockRest_of_content notSep atEnd, item_mul_blockTail]
    split
    · exact le_rfl
    · exact mul_le_mul_right (mul_le_mul_left le_sup_right _) _

end Blocks

theorem spells_block (later : Spells reader item fun _ => left) :
    Spells reader (Grammar.block item none) fun _ => Phrase.block left := by
  intro reading fits _ last read
  exact adds_block later fits read

theorem spells_someBlock (first : List TokenKind) (later : Spells reader item fun _ => left) :
    Spells reader (Grammar.block item (some first)) fun _ => Phrase.someBlock left := by
  intro reading fits _ last read
  exact adds_block later fits read

end Offside.Grammar
