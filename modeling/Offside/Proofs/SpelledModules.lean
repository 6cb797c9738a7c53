import Offside.Proofs.CleanRuns
import Offside.Proofs.SpelledDeclarations

/-!
# Modules spell their production

The rules keep their promises, whatever the bound on calls.  So does the
script of a whole module, and the root of a parse that reports nothing is
formed: the children of every node spell the production of its kind.
-/

namespace Offside.Grammar

open Offside.Layout (Follows)
open Offside.Phrase
open scoped Computability

/-! ### Rules -/

theorem takes_of_isOperand {kind : NodeKind} (operand : isOperand kind = true) :
    Level.takes .expr kind = true := by
  rw [isOperand, Bool.and_eq_true, Bool.and_eq_true] at operand
  rw [Level.takes, Level.accepts, operand.1.1, operand.2]
  exact operand.1.2

theorem hands_operandOf {reader : Reader}
    (spell : RulesSpell reader) (level : Level) (reading : Reading) :
    Hands reader reading reading (operandOf level) (HasKind level.takes) := by
  cases level with
  | expr => exact (spell.operand reading).mono fun _ has => has.mono fun _ => takes_of_isOperand
  | binder => exact hands_binderOperand spell
  | type => exact hands_typeApp spell

theorem rulesSpell_upTo (setting : Setting) (bound : Nat) : RulesSpell (.upTo setting bound) := by
  induction bound with
  | zero =>
    exact
      { chain := by rintro _ _ _ _ - _ _ ⟨⟩
        expr := fun _ => hands_of_none rfl
        operand := fun _ => hands_of_none rfl
        update := fun _ _ => yields_of_none rfl
        binder := fun _ => hands_of_none rfl
        binderAtom := fun _ => hands_of_none rfl
        type := fun _ => hands_of_none rfl
        localDecl := fun _ => yields_of_none rfl }
  | succ bound ih =>
    exact
      { chain := fun level _ _ => chains_chain ih (hands_operandOf ih level)
        expr := fun _ => hands_exprRule ih
        operand := fun _ => hands_operandRule ih
        update := fun _ seen fits => yields_updateRule ih seen fits
        binder := fun _ => hands_binderRule ih
        binderAtom := fun _ => hands_binderAtomRule ih
        type := fun _ => hands_typeRule ih
        localDecl := spells_localDeclRule ih }

variable {setting : Setting} {reader : Reader} {reading : Reading}

/-! ### The top level -/

theorem yields_moduleHeader (seen : (reading.peek 0).kind = .keyword .moduleWord) :
    Yields reader reading moduleHeader fun _ => Phrase.node .moduleHeader := by
  refine .insideKind fun inner sights => ?_
  exact .take (by rw [sights]; exact seen) (by decide) fun _ =>
    .then (spells_moduleName _) fun _ third =>
      .whenLook rfl (fun isOpen => .insideKind fun list onList =>
        yields_itemList spells_exportItem (by rw [onList]; exact of_decide_eq_true isOpen))
        fun _ _ => (yields_expect (by decide)).ignore

theorem read?_skipRound (reading : Reading) :
    (eat .layoutSep >>= fun answer => if answer = true then
      pure () >>= fun _ => pure (ForInStep.yield ()) else pure (.done ())).read? reader
        reading =
      if (reading.peek 0).kind = .layoutSep then reading.bump?.map (.yield (), ·)
      else some (.done (), reading) := by
  rw [Script.read?_bind, read?_eat]
  split
  · cases reading.bump? <;> rfl
  · rfl

variable {after : Reading} {item : Language Shape} {cancelled : Bool}

theorem read?_skipSeparators (fits : reading.Fits reader.setting)
    (read : (whileSeen (eat .layoutSep) (pure ())).read? reader reading = some ((), after)) :
    ((reading.peek 0).kind ≠ .layoutSep ∧ after = reading) ∨
      ((reading.peek 0).kind = .layoutSep ∧ Adds reader.setting reading after (token .layoutSep) ∧
        (after.peek 0).kind ∉ itemEnds) := by
  obtain ⟨bound, rounds⟩ := Nat.exists_eq_succ_of_ne_zero (Nat.ne_zero_of_lt fits.rounds)
  rw [Script.read?, rounds, iterate?, read?_skipRound] at read
  by_cases isSep : (reading.peek 0).kind = .layoutSep
  · rw [if_pos isSep] at read
    obtain ⟨⟨step, middle⟩, readRound, readRest⟩ := Option.bind_eq_some_iff.mp read
    obtain ⟨next, bumped, same⟩ := Option.map_eq_some_iff.mp readRound
    cases same
    obtain ⟨kinds, -⟩ := Reading.bump?_eq_some reader.setting bumped
      (Reading.ahead_ne_nil (by rw [isSep]; decide))
    have taken : Yields reader reading Script.bump fun _ => token .layoutSep :=
      .lastIn _ (decide_eq_true isSep) rfl
    have adds := taken fits () middle (congrArg _ bumped)
    rw [isSep] at kinds
    have starts := peek_of_separator fits kinds
    -- There is a token behind the separator, so there is another round, and it is the last.
    obtain ⟨further, more⟩ : ∃ further, bound = further + 1 := by
      have enough := fits.rounds
      rw [kinds, List.length_cons] at enough
      exact Nat.exists_eq_succ_of_ne_zero (by omega)
    rw [more] at readRest
    change iterate? _ (further + 1) () middle = _ at readRest
    rw [iterate?, read?_skipRound, if_neg fun again => starts (by rw [again]; decide)] at readRest
    cases readRest
    exact .inr ⟨isSep, adds, starts⟩
  · rw [if_neg isSep] at read
    cases read
    exact .inl ⟨isSep, rfl⟩

/-- What the declarations up to an end can be, by the kind of the token ahead. -/
def topRest (item : Language Shape) (ahead : TokenKind) : Language Shape :=
  if ahead = .layoutEnd ∨ ahead = .eof then 1
  else if ahead = .layoutSep then (token .layoutSep * item)∗
  else items item

theorem topRest_le_kstar {ahead : TokenKind} (ends : ahead ∈ itemEnds) :
    topRest item ahead ≤ (token .layoutSep * item)∗ := by
  rw [itemEnds, List.mem_cons, List.mem_cons, List.mem_singleton] at ends
  rcases ends with rfl | rfl | rfl
  · exact le_rfl
  · exact one_le_kstar
  · exact one_le_kstar

/-- One round at the top level, if the run is not given up. -/
def topRound : Script (ForInStep Bool) := do
  whileSeen (eat .layoutSep) (pure ())
  if (← seesAny [.layoutEnd, .eof]) then pure (.done false)
  else
    topLevelItem
    pure (.yield false)

variable (setting : Setting) (item : Language Shape) (reading after : Reading) in
/-- What one round at the top level can do. -/
inductive TopStep :
    ForInStep Bool → Prop where
  /-- The end of the declarations has been reached. -/
  | stop (ahead : (reading.peek 0).kind = .layoutEnd ∨ (reading.peek 0).kind = .eof)
      (adds : Adds setting reading after 1) : TopStep (.done false)
  /-- A declaration is taken. -/
  | content (ahead : (reading.peek 0).kind ∉ itemEnds) (adds : Adds setting reading after item)
      (fewer : after.kinds.length < reading.kinds.length)
      (ends : (after.peek 0).kind ∈ itemEnds) : TopStep (.yield false)
  /-- A separator and a declaration are taken. -/
  | next (ahead : (reading.peek 0).kind = .layoutSep)
      (adds : Adds setting reading after (token .layoutSep * item))
      (fewer : after.kinds.length < reading.kinds.length)
      (ends : (after.peek 0).kind ∈ itemEnds) : TopStep (.yield false)

theorem read?_topLevelItem (spell : RulesSpell reader) (fits : reading.Fits reader.setting)
    (read : topLevelItem.read? reader reading = some ((), after)) :
    Adds reader.setting reading after (nodeIn NodeKind.isDecl) ∧
      after.kinds.length < reading.kinds.length ∧ (after.peek 0).kind ∈ itemEnds := by
  obtain ⟨⟨_, start⟩, forgotten, readItem⟩ := Option.bind_eq_some_iff.mp read
  cases forgotten
  have inner : Reading.Fits reader.setting { reading with openBrackets := 0 } :=
    ⟨fits.rounds, fits.spaced⟩
  obtain ⟨last, adds, fewer, ends, same⟩ := read?_itemThen (spells_decl spell) inner
    (fun reading => read?_recover _ _ reading) readItem
  cases same
  exact ⟨⟨adds.onward, adds.row⟩, fewer, ends⟩

theorem read?_topRound (spell : RulesSpell reader) {step : ForInStep Bool}
    (fits : reading.Fits reader.setting)
    (read : topRound.read? reader reading = some (step, after)) :
    TopStep reader.setting (nodeIn NodeKind.isDecl) reading after step := by
  obtain ⟨⟨_, middle⟩, readSkip, readMore⟩ := Option.bind_eq_some_iff.mp read
  have skipped := read?_skipSeparators fits readSkip
  rw [Script.read?_bind, watches_seesAny _ middle] at readMore
  dsimp only [Option.bind_some] at readMore
  split at readMore
  · next atEnd =>
      cases readMore
      rw [List.contains_iff_mem, List.mem_cons, List.mem_singleton] at atEnd
      rcases skipped with ⟨-, rfl⟩ | ⟨-, -, starts⟩
      · exact .stop atEnd (.refl _)
      · exact absurd (List.mem_cons_of_mem _ (by simpa using atEnd)) starts
  · next notEnd =>
      obtain ⟨⟨_, last⟩, readItem, same⟩ := Option.bind_eq_some_iff.mp readMore
      cases same
      rcases skipped with ⟨notSep, rfl⟩ | ⟨isSep, separated, starts⟩
      · obtain ⟨adds, fewer, ends⟩ := read?_topLevelItem spell fits readItem
        refine .content ?_ adds fewer ends
        simpa [itemEnds, notSep] using notEnd
      · obtain ⟨adds, fewer, ends⟩ :=
          read?_topLevelItem spell (fits.onward separated.onward) readItem
        exact .next isSep (separated.trans adds)
          (Nat.lt_of_lt_of_le fewer separated.onward.kept.length_le) ends

/-- The words of the language, or any row if the run was given up. -/
def unlessGivenUp (cancelled : Bool) (words : Language Shape) : Language Shape :=
  {row | cancelled = false → row ∈ words}

theorem mul_unlessGivenUp_le {left words whole : Language Shape} (le : left * words ≤ whole) :
    left * unlessGivenUp cancelled words ≤ unlessGivenUp cancelled whole := by
  rintro _ ⟨front, inFront, back, inBack, rfl⟩ finished
  exact le (Language.append_mem_mul inFront (inBack finished))

theorem unlessGivenUp_mono {words whole : Language Shape} (le : words ≤ whole) :
    unlessGivenUp cancelled words ≤ unlessGivenUp cancelled whole :=
  fun _ member finished => le (member finished)

theorem TopStep.adds_of_done {final : Bool}
    (step : TopStep setting item reading after (.done final)) :
    Adds setting reading after (unlessGivenUp final (topRest item (reading.peek 0).kind)) := by
  cases step with
  | stop ahead adds =>
    refine adds.mono fun row empty _ => ?_
    rw [topRest, if_pos ahead]
    exact empty

theorem TopStep.fewer {next : Bool} (step : TopStep setting item reading after (.yield next)) :
    reading.Onward setting after ∧ after.kinds.length < reading.kinds.length := by
  cases step with
  | content _ adds fewer _ => exact ⟨adds.onward, fewer⟩
  | next _ adds fewer _ => exact ⟨adds.onward, fewer⟩

theorem TopStep.adds_of_yield {last : Reading} {next : Bool}
    (step : TopStep setting item reading after (.yield next))
    (rest : Adds setting after last (unlessGivenUp cancelled (topRest item (after.peek 0).kind))) :
    Adds setting reading last (unlessGivenUp cancelled (topRest item (reading.peek 0).kind)) := by
  cases step with
  | content ahead adds _ ends =>
    rw [itemEnds, List.mem_cons, List.mem_cons, List.mem_singleton, not_or, not_or] at ahead
    refine (adds.trans rest).mono (mul_unlessGivenUp_le ?_)
    refine (mul_le_mul_right (topRest_le_kstar ends) _).trans ?_
    rw [topRest, if_neg (not_or.mpr ahead.2), if_neg ahead.1]
    exact le_rfl
  | next ahead adds _ ends =>
    refine (adds.trans rest).mono (mul_unlessGivenUp_le ?_)
    refine (mul_le_mul_right (topRest_le_kstar ends) _).trans ?_
    rw [topRest, if_neg (by rw [ahead]; decide), if_pos ahead]
    exact mul_kstar_le_kstar

theorem TopStep.of_polls {step : ForInStep Bool} {polls : Nat}
    (taken : TopStep setting item { reading with polls } after step) :
    TopStep setting item reading after step := by
  cases taken with
  | stop ahead adds => exact .stop ahead ⟨adds.onward, adds.row⟩
  | content ahead adds fewer ends => exact .content ahead ⟨adds.onward, adds.row⟩ fewer ends
  | next ahead adds fewer ends => exact .next ahead ⟨adds.onward, adds.row⟩ fewer ends

theorem adds_topLevel (spell : RulesSpell reader) {last : Reading}
    (fits : reading.Fits reader.setting)
    (read : topLevel.read? reader reading = some (cancelled, last)) :
    Adds reader.setting reading last
      (unlessGivenUp cancelled (topRest (nodeIn NodeKind.isDecl) (reading.peek 0).kind)) := by
  have once : ∀ (reading : Reading) step after, reading.Fits reader.setting →
      Script.read? reader (do
        if (← Script.poll) then pure (.done true) else topRound) reading = some (step, after) →
      step = .done true ∧ Adds reader.setting reading after 1 ∨
        TopStep reader.setting (nodeIn NodeKind.isDecl) reading after step := by
    intro reading step after fits read
    obtain ⟨⟨gone, start⟩, polled, readRest⟩ := Option.bind_eq_some_iff.mp read
    cases polled
    dsimp only at readRest
    split at readRest
    · cases readRest
      exact .inl ⟨rfl, (Adds.refl reading).onward, (Adds.refl reading).row⟩
    · have inner : Reading.Fits reader.setting { reading with polls := reading.polls + 1 } :=
        ⟨fits.rounds, fits.spaced⟩
      exact .inr (read?_topRound spell inner readRest).of_polls
  refine iterate?_induct (fun _ => Reading.Fits reader.setting)
    (fun _ start final last => Adds reader.setting start last
      (unlessGivenUp final (topRest _ (start.peek 0).kind)))
    (fun _ start final after fits readRound => ?_)
    (fun _ start next after fits readRound => ?_) reader.setting.rounds false reading fits
    fits.rounds read
  · rcases once start _ after fits readRound with ⟨gone, adds⟩ | step
    · cases gone
      exact adds.mono fun _ _ finished => by cases finished
    · exact step.adds_of_done
  · rcases once start _ after fits readRound with ⟨gone, -⟩ | step
    · cases gone
    · exact ⟨fits.onward step.fewer.1, step.fewer.2, fun _ _ later => step.adds_of_yield later⟩

/-! ### The whole text -/

theorem topRest_le_items {ahead : TokenKind} (notSep : ahead ≠ .layoutSep) :
    topRest item ahead ≤ maybe (items item) := by
  rw [topRest]
  split
  · exact le_sup_left
  · exact le_sup_right

theorem topRest_le (ahead : TokenKind) :
    topRest item ahead ≤ maybe (token .layoutSep) * maybe (items item) := by
  by_cases isSep : ahead = .layoutSep
  · rw [topRest, if_neg (by rw [isSep]; decide), if_pos isSep,
      ← Language.one_add_self_mul_kstar_eq_kstar, mul_assoc]
    exact sup_le (one_le_mul le_sup_left le_sup_left) (mul_le_mul' le_sup_right le_sup_right)
  · exact (topRest_le_items isSep).trans (le_mul_of_one_le_left' le_sup_left)

/-- What the declarations of a module add, in a block or not. -/
def declarations : Language Shape :=
  Phrase.block (nodeIn NodeKind.isDecl) +
    maybe (token .layoutSep) * maybe (items (nodeIn NodeKind.isDecl))

section Texts

variable (spell : RulesSpell reader) (fits : reading.Fits reader.setting)
  {cancelled : Bool} {last : Reading}
include spell fits

theorem adds_openTopLevel
    (read : topLevel.read? reader reading = some (cancelled, last)) :
    Adds reader.setting reading last (unlessGivenUp cancelled declarations) :=
  (adds_topLevel spell fits read).mono (unlessGivenUp_mono ((topRest_le _).trans le_sup_right))

theorem adds_body
    (read : Script.read? reader (do
      if (← eat .layoutStart) then
        let cancelled ← topLevel
        ignore (expect .layoutEnd)
        pure cancelled
      else topLevel) reading = some (cancelled, last)) :
    Adds reader.setting reading last (unlessGivenUp cancelled declarations) := by
  obtain ⟨⟨isOpen, start⟩, readEat, readRest⟩ := Option.bind_eq_some_iff.mp read
  have eaten : Yields reader reading (eat .layoutStart) _ := yields_eat (by decide)
  have adds := eaten fits isOpen start readEat
  have fitsStart := fits.onward adds.onward
  cases isOpen with
  | false => 
    exact (adds.trans (adds_openTopLevel spell fitsStart readRest)).mono (one_mul _).le
  | true =>
    obtain ⟨⟨_, inner⟩, readTop, readEnd⟩ := Option.bind_eq_some_iff.mp readRest
    obtain ⟨⟨_, closed⟩, readClose, same⟩ := Option.bind_eq_some_iff.mp readEnd
    cases same
    have notSep := peek_of_start fits (read?_eat_true (by decide) readEat)
    have items := (adds_topLevel spell fitsStart readTop).mono
      (unlessGivenUp_mono (topRest_le_items notSep))
    have closing : Yields reader inner (ignore (expect .layoutEnd)) _ :=
      (yields_expect (by decide)).ignore
    have ends := closing (fitsStart.onward items.onward) () _ readClose
    refine (adds.trans (items.trans ends)).mono ?_
    rintro _ ⟨front, inFront, _, ⟨middle, inMiddle, back, inBack, rfl⟩, rfl⟩ finished
    exact .inl (Language.append_mem_mul inFront
      (Language.append_mem_mul (inMiddle finished) inBack))

theorem adds_moduleItems
    (read : moduleItems.read? reader reading = some (cancelled, last)) :
    Adds reader.setting reading last
      (unlessGivenUp cancelled (maybe (Phrase.node .moduleHeader) * declarations)) := by
  rw [Script.read?_bind, watches_sees _ reading] at read
  dsimp only [Option.bind_some] at read
  split at read
  · next seen =>
      obtain ⟨⟨_, headed⟩, readHeader, readBody⟩ := Option.bind_eq_some_iff.mp read
      have header := yields_moduleHeader (of_decide_eq_true seen) fits () headed readHeader
      have body := adds_body spell (fits.onward header.onward) readBody
      exact (header.trans body).mono (mul_unlessGivenUp_le (mul_le_mul_left le_sup_right _))
  · exact (adds_openTopLevel spell fits read).mono
      (unlessGivenUp_mono (le_mul_of_one_le_left' le_sup_left))

omit spell in
theorem read?_rest
    (read : (whileSeen seesMore (misfit [])).read? reader reading = some ((), after)) :
    after = reading ∧ (reading.peek 0).kind = .eof := by
  obtain ⟨bound, rounds⟩ := Nat.exists_eq_succ_of_ne_zero (Nat.ne_zero_of_lt fits.rounds)
  have looks : Watches reader seesMore fun sights => decide ((sights 0).kind ≠ .eof) :=
    fun _ => rfl
  rw [whileSeen, Script.read?, rounds, iterate?, Script.read?_bind, looks reading] at read
  by_cases atEnd : (reading.peek 0).kind = .eof
  · simp only [atEnd, ne_eq, not_true_eq_false, decide_false] at read
    cases read
    exact ⟨rfl, atEnd⟩
  · simp only [atEnd, ne_eq, not_false_eq_true, decide_true] at read
    cases read

omit spell fits in
theorem adds_bump_end (atEnd : (reading.peek 0).kind = .eof) (bumped : reading.bump? = some after) :
    Adds setting reading after (maybe (token .eof)) := by
  by_cases empty : reading.ahead = []
  · rw [Reading.bump?, Reading.takeTrivia?, empty] at bumped
    have same : reading.takeToken = reading := by rw [Reading.takeToken, empty]
    rw [← Option.some.inj bumped, same]
    exact (Adds.refl reading).mono le_sup_left
  · have taken : Adds setting reading after (token .eof) :=
      adds_bump (fun sight => sight.kind = .eof) (decide_eq_true atEnd) empty bumped
    exact taken.mono le_sup_right

theorem adds_wholeModule
    (read : wholeModule.read? reader reading = some (cancelled, last)) :
    Adds reader.setting reading last (unlessGivenUp cancelled (production .wholeModule)) := by
  obtain ⟨⟨gone, items⟩, readItems, readRest⟩ := Option.bind_eq_some_iff.mp read
  have adds := adds_moduleItems spell fits readItems
  cases gone with
  | true =>
    cases readRest
    exact adds.mono fun _ _ finished => by cases finished
  | false =>
    obtain ⟨⟨_, rest⟩, readMore, readEnd⟩ := Option.bind_eq_some_iff.mp readRest
    obtain ⟨rfl, atEnd⟩ := read?_rest (fits.onward adds.onward) readMore
    obtain ⟨⟨_, ended⟩, readBump, same⟩ := Option.bind_eq_some_iff.mp readEnd
    cases same
    obtain ⟨_, bumped, same⟩ := Option.map_eq_some_iff.mp readBump
    cases same
    refine (adds.trans (adds_bump_end atEnd bumped)).mono ?_
    rintro _ ⟨front, inFront, back, inBack, rfl⟩ finished
    have whole := Language.append_mem_mul (inFront finished) inBack
    rw [mul_assoc] at whole
    exact whole

end Texts

end Offside.Grammar

/-! ### Clean parses -/

namespace Offside.Job

open Offside.Grammar

variable (job : Job)

theorem kinds_openingReading :
    job.openingReading.kinds =
      (job.tokens.map fun token => token.kind).filter TokenKind.isVisible := by
  have visible := Lexeme.map_token_groupFrom [] job.tokens
  rw [List.filter_map]
  refine Eq.trans ?_ (congrArg _ visible)
  rw [List.map_map]
  rfl

theorem fits_openingReading : job.openingReading.Fits job.scene.setting := by
  refine ⟨?_, ?_⟩
  · rw [Reading.kinds, List.length_map]
    exact Nat.lt_add_of_pos_right Nat.two_pos
  · have orderly := Layout.orderly_tokens job.options.tabWidth job.source
    rw [Layout.Orderly, List.filter_append] at orderly
    rw [kinds_openingReading]
    exact orderly

theorem adds_of_readWhole? {cancelled : Bool} {reading : Reading}
    (read : job.readWhole? = some (cancelled, reading)) :
    Adds job.scene.setting job.openingReading reading
      (unlessGivenUp cancelled (production .wholeModule)) :=
  adds_wholeModule (rulesSpell_upTo _ _)
    job.fits_openingReading read

theorem adds_of_clean (clean : job.run.parse.hasErrors = false) :
    ∃ reading, Adds job.scene.setting job.openingReading reading
        (unlessGivenUp job.run.cancelled (production .wholeModule)) ∧
      Pictures job.scene job.ending.2 reading := by
  obtain ⟨reading, read, pictures⟩ := job.readWhole?_of_clean clean
  exact ⟨reading, job.adds_of_readWhole? read, pictures⟩

/-- The fixities in force in the text, if none is added while it is read. -/
def table? : Option OperatorTable :=
  job.openingReading.table? job.scene.setting

theorem formed_root (finished : job.run.cancelled = false)
    (clean : job.run.parse.hasErrors = false) :
    ∃ children, job.run.parse.root.shape? = some (.node .wholeModule children) ∧
      (Shape.node .wholeModule children).Formed job.table? := by
  obtain ⟨reading, read, -⟩ := job.readWhole?_of_clean clean
  rw [finished] at read
  obtain ⟨-, -, root⟩ := job.run_of_readWhole? read
  obtain ⟨-, new, row, spelled, formed⟩ := job.adds_of_readWhole? read
  rw [openingReading, List.append_nil] at row
  rw [row] at root
  exact ⟨_, root, .node (production_le_rowsOf rfl _ (spelled rfl)) formed⟩

end Offside.Job

namespace Offside.Tree

variable {table? : Option OperatorTable}

theorem formed_forestNodes : (trees : List Tree) →
    (∀ shape ∈ shapes trees, shape.Formed table?) →
      ∀ node ∈ forestNodes trees, ∃ kind, node.kind? = some kind ∧
        shapes node.children ∈ Grammar.rowsOf table? kind ∧
          ∀ shape ∈ shapes node.children, shape.Formed table?
  | [], _ => fun _ member => absurd member List.not_mem_nil
  | leaf _ :: rest, formed =>
    formed_forestNodes rest fun shape member => formed shape (List.mem_append_right _ member)
  | node kind span error children :: rest, formed => by
    obtain ⟨own, later⟩ := List.forall_mem_cons.mp formed
    cases own with
    | node spelled parts =>
      refine List.forall_mem_cons.mpr ⟨⟨kind, rfl, spelled, parts⟩, ?_⟩
      exact List.forall_mem_append.mpr
        ⟨formed_forestNodes children parts, formed_forestNodes rest later⟩

theorem formed_nodes {tree : Tree} {shape : Shape} (isShape : tree.shape? = some shape)
    (formed : shape.Formed table?) :
    ∀ node ∈ tree.nodes, ∃ kind, node.kind? = some kind ∧
      shapes node.children ∈ Grammar.rowsOf table? kind ∧
        ∀ shape ∈ shapes node.children, shape.Formed table? := by
  have all := @formed_forestNodes table? [tree]
  rw [shapes, isShape, forestNodes, forestNodes, List.append_nil] at all
  exact all (List.forall_mem_singleton.mpr formed)

end Offside.Tree
