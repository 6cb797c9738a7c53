import Offside.Proofs.Spelling

/-!
# Types, binders and expressions spell their productions

If the rules hand on what they promise, so do the scripts of types, binders and
expressions: each node that they close has children that spell the production
of its kind.
-/

namespace Offside.Grammar

open Offside.Phrase
open scoped Computability

def Level.accepts : Level → NodeKind → Bool
  | .expr, kind => kind.isExpr && kind ≠ .exprTyped
  | .binder, kind => kind.isBinder
  | .type, kind => isTypeTerm kind

theorem isExpr_of_accepts {kind : NodeKind} (accepted : Level.accepts .expr kind = true) :
    kind.isExpr = true :=
  (Bool.and_eq_true_iff.mp accepted).1

/-- What the operands of a chain may be: no chain of the same level. -/
def Level.takes (level : Level) (kind : NodeKind) : Bool :=
  level.accepts kind && kind ≠ level.nodeKind

variable {α : Type} {level : Level} {script : Script Bool} {accepts : NodeKind → Bool}
  {operator : ChainOperator}

theorem Level.accepts_of_takes {kind : NodeKind} (taken : level.takes kind = true) :
    level.accepts kind = true :=
  (Bool.and_eq_true_iff.mp taken).1

def Level.operatorIn (level : Level) (reading : Reading) : Option ChainOperator :=
  (level.nameIn reading.peek).map fun name => ⟨name, reading.operators.fixity level.space name⟩

/-- A chain stops where no operator is ahead that binds tightly enough. -/
def Level.Stops (level : Level) (least : Nat) (reading : Reading) : Prop :=
  ∀ operator ∈ level.operatorIn reading, operator.fixity.precedence < least

/-- A term of the level; if it is a chain, it may follow the operator in front of it. -/
structure Level.Tops (level : Level) (table? : Option OperatorTable) (least : Nat)
    (parent : Option ChainOperator) (shape : Shape) : Prop where
  has : HasKind level.accepts shape
  climbs : ∀ table ∈ table?, shape.isOfKind level.nodeKind = true →
    least ≤ (level.shapeFixity table shape).precedence ∧
      ∀ outer ∈ parent, Chainable outer.fixity (level.shapeFixity table shape)

/-- Every clean run of the script hands on a term of the level, and stops where a chain does. -/
def Level.Chains (level : Level) (reader : Reader) (least : Nat)
    (parent : Option ChainOperator) (script : Script Bool) : Prop :=
  ∀ reading, reading.Fits reader.setting → ∀ answer after,
    script.read? reader reading = some (answer, after) →
      answer = true ∧ level.Stops least after ∧
        Holding reader.setting reading after
          (level.Tops (reading.table? reader.setting) least parent)

/-- What the rules promise to those who call them. -/
structure RulesSpell (reader : Reader) : Prop where
  chain : ∀ (level : Level) least parent,
    level.Chains reader least parent (.call (.chain level least parent))
  expr : ∀ reading,
    Hands reader reading reading (.call .expr) (HasKind NodeKind.isExpr)
  operand : ∀ reading, Hands reader reading reading (.call .operand) (HasKind isOperand)
  update : ∀ reading, (reading.peek 0).kind = .openBrace →
    Yields reader reading (.call .update) fun _ => update
  binder : ∀ reading,
    Hands reader reading reading (.call .binder) (HasKind NodeKind.isBinder)
  binderAtom : ∀ reading,
    Hands reader reading reading (.call .binderAtom) (HasKind (Level.takes .binder))
  type : ∀ reading, Hands reader reading reading (.call .type) (HasKind isTypeTerm)
  localDecl : Spells reader (.call .localDecl) fun _ => localDecl

variable {setting : Setting} {reader : Reader} {reading : Reading}

theorem Level.Chains.hands {least : Nat} {parent : Option ChainOperator}
    (chains : level.Chains reader least parent script) (reading : Reading) :
    Hands reader reading reading script (HasKind level.accepts) := by
  intro fits answer after read
  obtain ⟨said, -, holding⟩ := chains reading fits answer after read
  exact ⟨said, holding.mono fun _ tops => tops.has⟩

theorem RulesSpell.rightOperand (spell : RulesSpell reader) {after : Reading}
    (fits : reading.Fits reader.setting)
    (read : (rightOperand level operator).read? reader reading = some ((), after)) :
    level.Stops (leastRight operator.fixity) after ∧
      Holding reader.setting reading after (level.Tops (reading.table? reader.setting)
        (leastRight operator.fixity) (some operator)) := by
  have readBoth := read?_of_enter read
  obtain ⟨⟨_, inner⟩, readOperand, same⟩ := Option.bind_eq_some_iff.mp readBoth
  cases same
  obtain ⟨⟨_, last⟩, readCall, same⟩ := Option.bind_eq_some_iff.mp readOperand
  cases same
  obtain ⟨-, stops, onward, last⟩ := spell.chain level _ _ _ fits.deeper _ _ readCall
  exact ⟨stops, onward, last⟩

/-! ### Bodies that name their node -/

/-- The words of a script that gives this answer and no other. -/
def named {α : Type} (value : α) (words : Language Shape) (answer : α) : Language Shape :=
  {word | answer = value ∧ word ∈ words}

theorem mul_named (left words : Language Shape) (value answer : α) :
    left * named value words answer = named value (left * words) answer := by
  ext word
  constructor
  · rintro ⟨front, inFront, back, ⟨same, inBack⟩, rfl⟩
    exact ⟨same, Language.append_mem_mul inFront inBack⟩
  · rintro ⟨same, front, inFront, back, inBack, rfl⟩
    exact Language.append_mem_mul inFront ⟨same, inBack⟩

theorem le_named {left words : Language Shape} {value : α} (le : left ≤ words) :
    left ≤ named value words value :=
  fun _ member => ⟨rfl, le member⟩

/-- The words of a body that names one of the kinds and spells its production. -/
def producedIn (accepts : NodeKind → Bool) : Option NodeKind → Language Shape
  | some kind => {word | accepts kind = true ∧ isSimple kind = true ∧ word ∈ production kind}
  | none => 0

theorem le_producedIn {kind : NodeKind} {words : Language Shape} (accepted : accepts kind = true)
    (le : words ≤ production kind) [simple_ : Decided (isSimple kind)] :
    words ≤ producedIn accepts (some kind) :=
  fun _ member => ⟨accepted, simple_.holds, le member⟩

theorem Hands.nodeIn {body : Script (Option NodeKind)} (later : ∀ inner, reading.SeesAs inner →
      Yields reader inner body (producedIn accepts)) :
    Hands reader reading reading (.node body) (HasKind accepts) := by
  refine Hands.node later (fun _ _ member => production_le_rowsOf member.2.1 _ member.2.2)
    (bot_unique ?_) rfl fun kind shape holds => ?_
  · rintro word ⟨-, simple_, -⟩
    cases simple_
  · obtain ⟨row, rfl, accepted, -⟩ := holds
    exact ⟨kind, row, rfl, accepted⟩

theorem Hands.nodeKind {kind : NodeKind} {body : Script Unit} (accepted : accepts kind = true)
    (later : ∀ inner, reading.SeesAs inner →
      Yields reader inner body fun _ => production kind)
    [simple_ : Decided (isSimple kind)] :
    Hands reader reading reading (Grammar.nodeOf kind body) (HasKind accepts) :=
  (Hands.nodeOf later le_rfl).mono fun _ holds => holds.hasKind accepted

theorem Yields.insideKind {kind : NodeKind} {body : Script Unit}
    (later : ∀ inner, reading.SeesAs inner →
      Yields reader inner body fun _ => production kind)
    [simple_ : Decided (isSimple kind)] :
    Yields reader reading (Grammar.inside kind body) fun _ => Phrase.node kind :=
  (Hands.nodeKind (decide_eq_true rfl) later).yields.ignore

/-! ### Tokens of several kinds -/

section Kinds

variable (test : TokenKind → Bool)

theorem notEnd_of_test (seen : test (reading.peek 0).kind = true) (never : test .eof = false) :
    (reading.peek 0).kind ≠ .eof := by
  intro atEnd
  rw [atEnd, never] at seen
  cases seen

theorem Yields.takeIn {next : Script α} {language : α → Language Shape}
    (seen : test (reading.peek 0).kind = true) (never : test .eof = false)
    (later : ∀ after, reading.SeesNext after → Yields reader after next language) :
    Yields reader reading (Script.bump >>= fun _ => next)
      fun value => tokenIn test * language value :=
  .bump (fun sight => test sight.kind) seen (notEnd_of_test test seen never) later

theorem Yields.onTokenIn {next : Script α} {done : Language Shape} {whole : α → Language Shape}
    (seen : test (reading.peek 0).kind = true) (never : test .eof = false)
    (later : ∀ after, reading.SeesNext after → Yields reader after next
      fun value => rest (done * tokenIn test) (whole value)) :
    Yields reader reading (Script.bump >>= fun _ => next)
      fun value => rest done (whole value) :=
  .onToken (fun sight => test sight.kind) seen (notEnd_of_test test seen never) later

theorem Yields.lastIn (seen : test (reading.peek 0).kind = true) (never : test .eof = false) :
    Yields reader reading Script.bump fun _ => tokenIn test :=
  .last (fun sight => test sight.kind) seen (notEnd_of_test test seen never)

theorem Hands.singleIn {kind : NodeKind} (seen : test (reading.peek 0).kind = true)
    (never : test .eof = false) (produced : tokenIn test ≤ production kind)
    (accepted : accepts kind = true) [simple_ : Decided (isSimple kind)] :
    Hands reader reading reading (Grammar.single kind) (HasKind accepts) :=
  (Hands.single (fun sight => test sight.kind) seen (notEnd_of_test test seen never)
    produced).mono
    fun _ holds => holds.hasKind accepted

end Kinds

/-! ### Types -/

def isMinus (sight : Sight) : Bool :=
  sight.kind = .operator && sight.text = "-"

theorem notEnd_of_isMinus (seen : isMinus (reading.peek 0) = true) :
    (reading.peek 0).kind ≠ .eof := by
  rw [isMinus, Bool.and_eq_true, decide_eq_true_eq] at seen
  rw [seen.1]
  decide

theorem watches_seesNegativeInteger :
    Watches reader seesNegativeInteger
      fun sights => isMinus (sights 0) && decide ((sights 1).kind = .integer) :=
  (watches_seesOperator "-").and (watches_kindAt_is 1 fun kind => kind = .integer)

theorem watches_seesTypeAtom :
    Watches reader seesTypeAtom fun sights => isTypeAtomStart (sights 0).kind ||
      (isMinus (sights 0) && decide ((sights 1).kind = .integer)) :=
  watches_kindAt_or watches_seesNegativeInteger

theorem watches_seesTypeOperatorName :
    Watches reader seesTypeOperatorName fun sights =>
      (decide ((sights 1).kind = .operator) || decide ((sights 1).kind = .qualifiedOperator)) &&
        decide ((sights 2).kind = .closeParen) :=
  watches_kindAt_and (watches_kindAt_is 2 fun kind => kind = .closeParen)

theorem watches_seesRow : ∃ asks, Watches reader seesRow asks :=
  ⟨_, watches_kind.bind fun _ => (watches_pure true).ite
    (((watches_kindAt 1).bind fun _ => watches_pure _).ite (watches_pure false))⟩

section Types

variable (spell : RulesSpell reader)
include spell

theorem yields_type : Yields reader reading (ignore (.call .type)) fun _ => type :=
  (spell.type reading).yields.ignore

theorem spells_row (closer : TokenKind) : Spells reader (row closer) fun _ => typeRow := by
  have field : Spells reader (inside .rowField do
      if (← kind).isLabel then Script.bump else missing [.lowerName]
      if (← expect .doubleColon) then ignore (.call .type)) fun _ => Phrase.node .rowField := by
    intro reading
    refine Yields.insideKind fun inner _ => Yields.seeKind ?_
    split
    · next isLabel =>
        exact .takeIn TokenKind.isLabel isLabel rfl fun after _ =>
          .ifExpect (by decide) fun _ => yields_type spell
    · exact yields_of_none rfl
  have tail : Spells reader (do
      if (← sees .pipe) then
        inside .rowTail do
          Script.bump
          ignore (.call .type)) fun _ => maybe (Phrase.node .rowTail) := by
    intro reading
    refine Yields.ifLook rfl fun seen =>
      Yields.insideKind fun inner sights => ?_
    refine Yields.take ?_ (by decide) fun _ => yields_type spell
    rw [sights]
    exact of_decide_eq_true seen
  intro reading
  exact Yields.unlessLook rfl
    (fun _ => spells_separated (by decide) field reading) fun _ => tail

/-- What stands in parentheses, by the kind of node that they make. -/
def inParens (kind : NodeKind) : Language Shape :=
  named .constraints (Phrase.separated .comma type) kind + named .typeParens type kind

omit spell in
theorem inParens_le (kind : NodeKind) :
    token .openParen * (inParens kind * token .closeParen) ≤
      producedIn (Level.takes .type) (some kind) := by
  rintro _ ⟨front, inFront, _, ⟨middle, inMiddle, back, inBack, rfl⟩, rfl⟩
  rcases inMiddle with ⟨rfl, inMiddle⟩ | ⟨rfl, inMiddle⟩
  · exact ⟨rfl, rfl,
      .inr (Language.append_mem_mul inFront (Language.append_mem_mul inMiddle inBack))⟩
  · exact ⟨rfl, rfl, Language.append_mem_mul inFront (Language.append_mem_mul inMiddle inBack)⟩

theorem spells_parenthesizedType : Spells reader parenthesizedType inParens := by
  intro reading fits kind last read
  obtain ⟨⟨finished, after⟩, readType, readRest⟩ := Option.bind_eq_some_iff.mp read
  obtain ⟨rfl, holding⟩ := spell.type reading fits finished after readType
  rw [Script.read?_bind, watches_sees .doubleColon after] at readRest
  dsimp only [Option.bind_some] at readRest
  split at readRest
  · next seen =>
      obtain ⟨⟨_, wrapped⟩, readWrap, same⟩ := Option.bind_eq_some_iff.mp readRest
      cases same
      have body : ∀ inner, after.SeesAs inner → Yields reader inner (do
          Script.bump
          ignore (.call .type)) fun _ => token .doubleColon * type := by
        intro inner sights
        refine Yields.take ?_ (by decide) fun _ => yields_type spell
        rw [sights]
        exact of_decide_eq_true seen
      have kinded := (holding.wrap fits body le_rfl readWrap).adds
      refine kinded.mono ((one_mono fun _ holds => ?_).trans ((le_named le_rfl).trans le_sup_right))
      exact holds.hasKind rfl
  · have tail : Yields reader after (do
        if (← sees .comma) then
          whileSeen (eat .comma) (ignore (.call .type))
          pure NodeKind.constraints
        else pure .typeParens) fun kind => rest type (inParens kind) := by
      refine Yields.test (watches_sees .comma) (fun _ => ?_) fun _ => ?_
      · refine .on (spells_whileEat (by decide) (fun _ => yields_type spell) after)
          fun _ _ => yields_done ?_
        exact (le_named le_rfl).trans le_sup_left
      · exact yields_done ((le_named le_rfl).trans le_sup_right)
    have added := tail (fits.onward holding.onward) kind last readRest
    exact (holding.adds.trans added).mono fun word ⟨front, inFront, back, inBack, same⟩ =>
      same ▸ inBack front inFront

theorem hands_typeParens (seen : (reading.peek 0).kind = .openParen) :
    Hands reader reading reading typeParens (HasKind (Level.takes .type)) := by
  refine Hands.enter fun inner sights => Hands.nodeIn fun body sightsBody => ?_
  rw [← sights, ← sightsBody] at seen
  refine Yields.of_rest (Yields.test watches_seesTypeOperatorName (fun isName => ?_) fun _ => ?_)
  · rw [Bool.and_eq_true] at isName
    refine .onTokenIn (fun kind => kind = .openParen) (decide_eq_true seen) rfl
      fun second onSecond => ?_
    refine .onTokenIn (fun kind => kind = .operator || kind = .qualifiedOperator)
      (by rw [onSecond]; exact isName.1) rfl fun third onThird => ?_
    refine .onTokenIn (fun kind => kind = .closeParen)
      (by rw [onThird, onSecond]; exact isName.2) rfl fun _ _ => .leave fun _ _ => yields_done ?_
    rw [one_mul, mul_assoc]
    exact le_producedIn rfl le_rfl
  · obtain ⟨asks, watches⟩ : ∃ asks, Watches reader seesRow asks := watches_seesRow
    refine .onTokenIn (fun kind => kind = .openParen) (decide_eq_true seen) rfl
      fun after _ => Yields.test watches (fun _ => ?_) fun _ => ?_
    · refine .on (spells_row spell .closeParen after) fun _ _ =>
        .on (spells_expectClosing .paren _) fun _ _ => .leave fun _ _ => yields_done ?_
      rw [one_mul, mul_assoc]
      exact le_producedIn rfl le_rfl
    · refine .on (spells_parenthesizedType spell after) fun kind _ =>
        .on (spells_expectClosing .paren _) fun _ _ => .leave fun _ _ => yields_done ?_
      rw [one_mul, mul_assoc]
      exact inParens_le kind

theorem hands_typeAtom : Hands reader reading reading typeAtom (HasKind (Level.takes .type)) := by
  refine Hands.seeKind ?_
  split
  case h_1 seen =>
    exact .singleIn _ (decide_eq_true seen) rfl le_rfl rfl
  case h_2 seen =>
    exact .singleIn _ (by rw [seen]; rfl) rfl le_rfl rfl
  case h_3 seen =>
    exact .singleIn _ (by rw [seen]; rfl) rfl le_rfl rfl
  case h_4 seen =>
    exact .singleIn _ (decide_eq_true seen) rfl le_rfl rfl
  case h_5 seen =>
    exact .singleIn _ (decide_eq_true seen) rfl le_rfl rfl
  case h_6 seen =>
    exact .singleIn TokenKind.isString (by rw [seen]; rfl) rfl le_rfl rfl
  case h_7 seen =>
    exact .singleIn TokenKind.isString (by rw [seen]; rfl) rfl le_rfl rfl
  case h_8 seen =>
    exact .singleIn _ (decide_eq_true seen) rfl le_sup_left rfl
  case h_9 seen =>
    refine Hands.nodeKind rfl fun inner sights => ?_
    refine Yields.take (by rw [sights]; exact seen) (by decide) fun after => ?_
    exact (spells_row spell .closeBrace after).then fun _ => spells_expectClosing .brace
  case h_10 seen => exact hands_typeParens spell seen
  case h_11 => exact hands_of_none rfl
  case h_12 =>
    refine Hands.test watches_seesNegativeInteger (fun isNegative => ?_)
      fun _ => hands_of_none rfl
    rw [Bool.and_eq_true] at isNegative
    refine Hands.nodeKind rfl fun inner sights => ?_
    refine (Yields.bump isMinus (by rw [sights]; exact isNegative.1)
      (notEnd_of_isMinus (by rw [sights]; exact isNegative.1)) fun after onAfter => ?_).mono
        fun _ => le_sup_right
    exact .lastIn _ (by rw [onAfter, sights]; exact isNegative.2) rfl

theorem yields_typeAtom : Yields reader reading (ignore typeAtom) fun _ => type :=
  ((hands_typeAtom spell).mono fun _ has => has.mono fun _ => Level.accepts_of_takes).yields.ignore

theorem spells_typeAtoms :
    Spells reader (whileSeen seesTypeAtom (ignore typeAtom)) fun _ => type∗ :=
  spells_whileSeen watches_seesTypeAtom fun _ _ => yields_typeAtom spell

theorem hands_typeApp : Hands reader reading reading typeApp (HasKind (Level.takes .type)) := by
  refine Hands.wrapped (hands_typeAtom spell) watches_seesTypeAtom (fun inner seen => ?_)
    (mul_le_mul_left (nodeIn_mono fun _ => Level.accepts_of_takes) _)
    (fun _ accepted => accepted) (fun _ holds => holds.hasKind rfl)
  exact .whileSeen watches_seesTypeAtom seen fun _ _ => yields_typeAtom spell

theorem hands_typeArrow : Hands reader reading reading typeArrow (HasKind isTypeTerm) :=
  Hands.suffixed ((spell.chain .type 0 none).hands reading)
    (fun _ seen => .take seen (by decide) fun _ => yields_type spell)
    (le_refl _) (fun _ accepted => accepted) fun _ holds => holds.hasKind rfl

theorem spells_typeVarBinding :
    Spells reader typeVarBinding fun _ => Phrase.node .typeVarBinding := by
  intro reading
  refine Yields.insideKind fun inner _ => Yields.seeKind ?_
  split
  case h_1 seen =>
    refine .mono (.take seen (by decide) fun second => .then (spells_ignoreEat (by decide) second)
      fun _ _ => .then (yields_expect (by decide)).ignore fun _ _ =>
        .ifExpect (by decide) fun _ => .then (yields_type spell) fun _ =>
          spells_expectClosing .paren) fun _ => ?_
    refine le_sup_of_le_left (le_sup_of_le_left (le_of_eq ?_))
    show _ = between .paren (maybe (token .atSign) *
      (token .lowerName * (token .doubleColon * type)))
    rw [between, mul_assoc, mul_assoc, mul_assoc]
  case h_2 seen =>
    refine (Yields.take seen (by decide) fun second => ?_).mono
      fun _ => le_sup_of_le_left le_sup_right
    exact (yields_expect (by decide)).ignore
  case h_3 => exact (yields_expect (by decide)).ignore.mono fun _ => le_sup_right

theorem hands_forallType (seen : (reading.peek 0).kind = .keyword .forallWord) :
    Hands reader reading reading forallType (HasKind isTypeTerm) := by
  refine Hands.nodeKind rfl fun inner sights => ?_
  refine Yields.take (by rw [sights]; exact seen) (by decide) fun after => ?_
  refine Yields.test (watches_seesAny quantifiedStarts) (fun seen => ?_) fun _ => ?_
  · exact (Yields.whileSeen (watches_seesAny quantifiedStarts) seen fun reading _ =>
      spells_typeVarBinding spell reading).then fun _ _ =>
        .ifExpect (by decide) fun _ => yields_type spell
  · exact yields_of_none rfl

theorem hands_typeRule : Hands reader reading reading typeRule (HasKind isTypeTerm) := by
  refine Hands.enter fun inner _ => Hands.thenLeave (Hands.test (watches_sees _)
    (fun seen => hands_forallType spell (of_decide_eq_true seen)) fun _ => ?_)
  exact Hands.suffixed (hands_typeArrow spell)
    (fun _ seen => .take seen (by decide) fun _ => yields_type spell)
    (le_refl _) (fun _ accepted => accepted)
    fun _ holds => holds.hasKind rfl

theorem spells_constraint : Spells reader constraint fun _ => Phrase.node .constraint := by
  intro reading
  refine Yields.test (watches_seesAny classNames) (fun seen => ?_)
    fun _ => yields_of_none rfl
  refine Yields.insideKind fun inner sights => ?_
  exact .takeIn _ (by rw [sights]; exact seen) rfl
    fun after _ => spells_typeAtoms spell after

theorem spells_constraints : Spells reader constraints fun _ => Phrase.node .constraints := by
  intro reading
  refine Yields.insideKind fun inner _ => ?_
  have listed : Spells reader (do
      Grammar.separated .comma constraint
      expectClosing .paren) fun _ =>
        Phrase.separated .comma (Phrase.node .constraint) * token .closeParen := fun reading =>
    (spells_separated (by decide) (spells_constraint spell) reading).then
      fun _ => spells_expectClosing .paren
  exact (Yields.ifEat (by decide) listed (spells_constraint spell)).mono fun _ => le_sup_left

end Types

/-! ### Chains -/

theorem watches_operatorName (level : Level) :
    Watches reader (Grammar.operatorName level) level.nameIn := by
  intro reading
  rw [Grammar.operatorName, Script.read?_bind, watches_peek 0 reading, Level.nameIn]
  dsimp only [Option.bind_some]
  generalize (reading.peek 0).kind = kind
  cases kind
  case backtick => dsimp only; split <;> rfl
  all_goals rfl

theorem read?_operatorAhead (level : Level) (reading : Reading) :
    (operatorAhead level).read? reader reading =
      some (level.operatorIn reading, reading) := by
  rw [operatorAhead, Script.read?_bind, watches_operatorName level reading, Level.operatorIn]
  cases level.nameIn reading.peek <;> rfl

theorem read?_isUnknown (level : Level) (operator : ChainOperator) (reading : Reading) :
    ∃ answer, (isUnknown level operator).read? reader reading =
      some (answer, reading) := by
  rw [Script.read?_bind, watches_sees .backtick reading]
  dsimp only [Option.bind_some]
  split
  · exact ⟨_, rfl⟩
  · rw [Script.read?_bind]
    dsimp only [Script.read?, Option.bind_some]
    split <;> exact ⟨_, rfl⟩

def spelledAs (name : String) : Language Shape :=
  {row | row ∈ production .operator ∧ Shape.spelling row = name}

def tickedName (sight : Sight) : Language Shape :=
  {row | sight.kind.isName = true ∧
    row ∈ tokenWhere (fun other => other = sight) * token .backtick}

theorem ticked_le_spelledAs (sight : Sight) :
    token .backtick * tickedName sight ≤ spelledAs sight.text := by
  rintro _ ⟨front, inFront, _, ⟨isName, _, ⟨_, ⟨name, rfl, same⟩, rfl⟩, back, inBack, rfl⟩, rfl⟩
  have isSight : Sight.ofToken name = sight := of_decide_eq_true same
  refine ⟨.inl (Language.append_mem_mul inFront (Language.append_mem_mul ?_ inBack)), ?_⟩
  · exact ⟨_, ⟨name, rfl, by rw [isSight]; exact isName⟩, rfl⟩
  · obtain ⟨_, ⟨_, rfl, -⟩, rfl⟩ := inFront
    obtain ⟨_, ⟨_, rfl, -⟩, rfl⟩ := inBack
    exact congrArg Sight.text isSight

theorem lone_le_spelledAs {sight : Sight} (isOperator : (decide (sight.kind = .operator) ||
      decide (sight.kind = .qualifiedOperator) || decide (sight.kind = .colon)) = true) :
    tokenWhere (fun other => other = sight) ≤ spelledAs sight.text := by
  rintro _ ⟨_, ⟨token, rfl, same⟩, rfl⟩
  rw [← of_decide_eq_true same] at isOperator ⊢
  exact ⟨.inr ⟨_, ⟨token, rfl, isOperator⟩, rfl⟩, rfl⟩

theorem notEnd_of_nameIn {name : String} (seen : level.nameIn reading.peek = some name) :
    (reading.peek 0).kind ≠ .eof := by
  intro atEnd
  rw [Level.nameIn, atEnd] at seen
  cases seen

theorem yields_tickedName {sight : Sight} (seen : reading.peek 0 = sight) :
    Yields reader reading (do
      if (← kind).isName then Script.bump else missing [.lowerName]
      ignore (expect .backtick)) fun _ => tickedName sight := by
  refine Yields.seeKind ?_
  rw [seen]
  split
  · next isName =>
      rw [← seen] at isName
      exact (Yields.bump _ (decide_eq_true seen)
        (notEnd_of_test _ isName rfl) fun _ _ => (yields_expect (by decide)).ignore).mono
          fun _ _ member => ⟨seen ▸ isName, member⟩
  · exact yields_of_none rfl

theorem yields_operator {name : String} (seen : level.nameIn reading.peek = some name) :
    Yields reader reading (inside .operator do
      if (← sees .backtick) then backtickedName else Script.bump)
      fun _ => nodeWith .operator (spelledAs name) := by
  refine Yields.inside (fun inner sights =>
    Yields.test (watches_sees .backtick) (fun isTick => ?_) fun notTick => ?_)
    fun _ member => member.1
  all_goals
    rw [← sights] at seen
    have notEnd := notEnd_of_nameIn seen
    rw [Level.nameIn] at seen
  · refine (Yields.bump (fun sight => sight.kind = .backtick) isTick notEnd fun after onAfter =>
      yields_tickedName (congrFun onAfter 0)).mono fun _ _ member => ?_
    obtain ⟨_, _, _, ⟨isName, _⟩, _⟩ := id member
    rw [of_decide_eq_true isTick] at seen
    dsimp only at seen
    split at seen
    · cases seen
      exact ticked_le_spelledAs _ member
    · cases seen
  · have isOperator : (decide ((inner.peek 0).kind = .operator) ||
        decide ((inner.peek 0).kind = .qualifiedOperator) ||
          decide ((inner.peek 0).kind = .colon)) = true ∧ (inner.peek 0).text = name := by
      revert seen notTick
      generalize inner.peek 0 = sight
      obtain ⟨kind, text⟩ := sight
      cases kind <;> simp
    rw [← isOperator.2]
    exact (Yields.last _ (decide_eq_true rfl) notEnd).mono
      fun _ => lone_le_spelledAs isOperator.1

theorem yields_operatorNode (seen : level.operatorIn reading = some operator)
    (conflict : Option FixityFault) :
    Yields reader reading (operatorNode level operator conflict)
      fun _ => one fun shape =>
        conflict = none ∧ Holds .operator (spelledAs operator.name) shape := by
  obtain ⟨unknown, looks⟩ : ∃ answer, (isUnknown level operator).read? reader reading =
    some (answer, reading) := read?_isUnknown level operator reading
  obtain ⟨name, named, rfl⟩ := Option.map_eq_some_iff.mp seen
  have sighted : Script.sighting.read? reader reading =
    some (reading.sighting reader.setting, reading) := rfl
  refine .look looks (.look sighted (.of_rest (.on (yields_operator named) fun _ after => ?_)))
  cases conflict with
  | some problem => exact yields_of_none rfl
  | none =>
    cases unknown with
    | true => exact yields_of_none rfl
    | false =>
      refine yields_done ?_
      rw [one_mul]
      exact one_mono fun _ holds => ⟨rfl, holds⟩

theorem Level.mul_le_production (level : Level) :
    nodeIn level.accepts * (Phrase.node .operator * nodeIn level.accepts) ≤
      production level.nodeKind := by
  cases level with
  | expr =>
    have le : nodeIn (Level.accepts .expr) ≤ Phrase.expr :=
      nodeIn_mono fun _ => isExpr_of_accepts
    exact mul_le_mul' le (mul_le_mul' le_rfl le)
  | binder => exact le_rfl
  | type => exact le_rfl

theorem Level.accepts_nodeKind (level : Level) : level.accepts level.nodeKind = true := by
  cases level <;> rfl

theorem fewer_operatorNode {after : Reading} {conflict : Option FixityFault}
    (seen : level.operatorIn reading = some operator) (fits : reading.Fits reader.setting)
    (read : (operatorNode level operator conflict).read? reader reading = some ((), after)) :
    after.kinds.length < reading.kinds.length := by
  obtain ⟨unknown, looks⟩ : ∃ answer, (isUnknown level operator).read? reader reading =
    some (answer, reading) := read?_isUnknown level operator reading
  obtain ⟨name, named, -⟩ := Option.map_eq_some_iff.mp seen
  rw [Script.read?_bind, looks, Option.bind_some] at read
  obtain ⟨⟨_, _⟩, sighted, readNode⟩ := Option.bind_eq_some_iff.mp read
  cases sighted
  obtain ⟨⟨_, closed⟩, readInside, readRest⟩ := Option.bind_eq_some_iff.mp readNode
  have same : after = closed := by
    cases conflict with
    | some problem => cases readRest
    | none => cases unknown with
      | true => cases readRest
      | false => cases readRest; rfl
  rw [same]
  refine fewer_inside fits (fun inner last sights opened readBody => ?_) readInside
  rw [Script.read?_bind, watches_sees .backtick inner] at readBody
  rw [← sights] at named
  dsimp only [Option.bind_some] at readBody
  split at readBody
  · exact fewer_bump (notEnd_of_nameIn named) opened
      (fun _ onNext => yields_tickedName (congrFun onNext 0)) readBody
  · obtain ⟨_, bumped, same⟩ := Option.map_eq_some_iff.mp readBody
    cases same
    obtain ⟨kinds, -⟩ :=
      Reading.bump?_eq_some reader.setting bumped (Reading.ahead_ne_nil (notEnd_of_nameIn named))
    rw [kinds]
    exact Nat.lt_succ_self _

/-- A term of the level; if it is a chain, its operator is the last one read. -/
structure Level.Ends (level : Level) (table? : Option OperatorTable) (least : Nat)
    (parent last : Option ChainOperator) (shape : Shape) : Prop where
  has : HasKind level.accepts shape
  ends : ∀ table ∈ table?, shape.isOfKind level.nodeKind = true →
    ∃ previous ∈ last, level.shapeFixity table shape = previous.fixity ∧
      least ≤ previous.fixity.precedence ∧ ∀ outer ∈ parent, Chainable outer.fixity previous.fixity

/-- What is known of a chain in front of a round. -/
structure OnChain (setting : Setting) (level : Level) (least : Nat)
    (parent : Option ChainOperator) (before : Reading) (state : Bool × Option ChainOperator)
    (reading : Reading) : Prop where
  finished : state.1 = true
  stops : ∀ last ∈ state.2, level.Stops (leastRight last.fixity) reading
  holding : Holding setting before reading
    (level.Ends (before.table? setting) least parent state.2)

section Chains

variable (spell : RulesSpell reader) {level : Level} {least : Nat}
  {parent last : Option ChainOperator} {before after : Reading}
include spell

theorem yields_operand {conflict : Option FixityFault}
    (ahead : level.operatorIn reading = some operator) :
    Yields reader reading (operatorNode level operator conflict >>= fun _ =>
        rightOperand level operator) fun _ =>
      (one fun shape => conflict = none ∧ Holds .operator (spelledAs operator.name) shape) *
        one (level.Tops (reading.table? reader.setting) (leastRight operator.fixity)
          (some operator)) := by
  intro fits _ final read
  obtain ⟨⟨_, middle⟩, readOperator, readOperand⟩ := Option.bind_eq_some_iff.mp read
  have adds := yields_operatorNode ahead conflict fits _ _ readOperator
  obtain ⟨-, holding⟩ := spell.rightOperand (fits.onward adds.onward) readOperand
  rw [adds.onward.table] at holding
  exact adds.trans holding.adds

omit spell in
theorem Level.operatorIn_fixity {table : OperatorTable}
    (ahead : level.operatorIn reading = some operator) (known : table ∈ reading.table? setting) :
    table.fixity level.space operator.name = operator.fixity := by
  obtain ⟨name, -, rfl⟩ := Option.map_eq_some_iff.mp ahead
  rw [Reading.table?] at known
  split at known
  · cases known
  · cases known
    rfl

omit spell in
theorem OnChain.row_le (onChain : OnChain setting level least parent before (true, last) reading)
    (ahead : level.operatorIn reading = some operator) :
    one (level.Ends (before.table? setting) least parent last) *
      ((one fun shape => conflictOf parent last operator = none ∧
          Holds .operator (spelledAs operator.name) shape) *
        one (level.Tops (reading.table? setting) (leastRight operator.fixity) (some operator))) ≤
      rowsOf (before.table? setting) level.nodeKind := by
  rintro _ ⟨_, ⟨left, ⟨isLeft, ends⟩, rfl⟩, _, ⟨_, ⟨_, ⟨free, row, rfl, spelled, named⟩, rfl⟩, _,
    ⟨right, tops, rfl⟩, rfl⟩, rfl⟩
  refine ⟨level.mul_le_production (Language.append_mem_mul ⟨left, isLeft, rfl⟩
    (Language.append_mem_mul ⟨_, ⟨_, row, rfl, decide_eq_true rfl⟩, rfl⟩
      ⟨right, tops.has, rfl⟩)), fun table known other same => ?_⟩
  cases Level.nodeKind_injective same
  refine ⟨left, row, right, rfl, fun isChain => ?_, fun isChain => ?_⟩
  all_goals
    rw [← onChain.holding.onward.table] at known
    rw [named, Level.operatorIn_fixity ahead known]
  · rw [onChain.holding.onward.table] at known
    obtain ⟨previous, isLast, same, -⟩ := ends table known isChain
    rw [same]
    exact ⟨onChain.stops previous isLast operator ahead,
      (chainable_of_conflictOf free).1 previous isLast⟩
  · obtain ⟨enough, fits⟩ := tops.climbs table known isChain
    exact ⟨enough, fits operator rfl⟩

/-- A round leaves what has been read, or puts it in front of an operator and an operand. -/
theorem read?_chainRound {step : ForInStep (Bool × Option ChainOperator)}
    (fits : before.Fits reader.setting)
    (onChain : OnChain reader.setting level least parent before (true, last) reading)
    (read : (chainRound level least parent (true, last)).read? reader reading =
      some (step, after)) :
    match step with
    | .done final => final = (true, last) ∧ after = reading ∧ level.Stops least reading
    | .yield next => OnChain reader.setting level least parent before next after ∧
        after.kinds.length < reading.kinds.length := by
  rw [chainRound, Script.read?_bind, read?_operatorAhead] at read
  dsimp only [Option.bind_some] at read
  cases ahead : level.operatorIn reading with
  | none =>
    rw [ahead] at read
    cases read
    exact ⟨rfl, rfl, fun operator seen => by rw [ahead] at seen; cases seen⟩
  | some operator =>
    rw [ahead] at read
    dsimp only at read
    split at read
    · next low =>
        cases read
        refine ⟨rfl, rfl, fun other seen => ?_⟩
        rw [ahead] at seen
        cases seen
        exact low
    · next high =>
      obtain ⟨⟨_, wrapped⟩, readWrap, same⟩ := Option.bind_eq_some_iff.mp read
      cases same
      obtain ⟨⟨_, inner⟩, readBody, same⟩ := Option.map_eq_some_iff.mp readWrap
      cases same
      have onward := onChain.holding.onward
      have aheadOf (row : Shape.Row) : level.operatorIn { reading with row } = some operator :=
        ahead
      have holding := onChain.holding.wrapOf fits
        (fun row => yields_operand spell (aheadOf row))
        (onChain.row_le ahead) (by cases level <;> rintro ⟨⟩) readWrap
      obtain ⟨⟨_, middle⟩, readOperator, readOperand⟩ := Option.bind_eq_some_iff.mp readBody
      have opened : Reading.Fits reader.setting { reading with row := reading.row.take 1 } :=
        fits.onward onward
      have taken := yields_operatorNode (aheadOf _) _ opened _ _ readOperator
      have shorter := fewer_operatorNode (aheadOf _) opened readOperator
      obtain ⟨stops, operandHeld⟩ := spell.rightOperand (opened.onward taken.onward) readOperand
      refine ⟨⟨rfl, ?_, holding.mono ?_⟩,
        Nat.lt_of_le_of_lt operandHeld.onward.kept.length_le shorter⟩
      · rintro _ ⟨rfl⟩
        exact stops
      · rintro _ ⟨_, rfl, _, ⟨left, -, rfl⟩, _, ⟨_, ⟨_, ⟨free, row, rfl, -, named⟩, rfl⟩, _,
          ⟨right, -, rfl⟩, rfl⟩, rfl⟩
        refine ⟨⟨_, _, rfl, level.accepts_nodeKind⟩, fun table known _ => ⟨operator, rfl, ?_,
          Nat.le_of_not_lt high, (chainable_of_conflictOf free).2⟩⟩
        rw [← onward.table] at known
        show table.fixity level.space (Shape.spelling row) = operator.fixity
        rw [named, Level.operatorIn_fixity ahead known]

theorem chains_chain {operand : Script Bool}
    (head : ∀ reading, Hands reader reading reading operand (HasKind level.takes)) :
    level.Chains reader least parent (chain operand level least parent) := by
  intro reading fits answer final read
  obtain ⟨⟨first, start⟩, readFirst, readRest⟩ := Option.bind_eq_some_iff.mp read
  obtain ⟨rfl, holding⟩ := head reading fits first start readFirst
  obtain ⟨⟨state, after⟩, readLoop, same⟩ := Option.bind_eq_some_iff.mp readRest
  cases same
  have starts : OnChain reader.setting level least parent reading (true, none) start := by
    refine ⟨rfl, by rintro _ ⟨⟩, holding.mono fun shape has => ?_⟩
    obtain ⟨kind, row, rfl, taken⟩ := has
    refine ⟨⟨kind, row, rfl, Level.accepts_of_takes taken⟩, fun _ _ isChain => ?_⟩
    exact absurd (of_decide_eq_true isChain)
      (of_decide_eq_true (Bool.and_eq_true_iff.mp taken).2)
  obtain ⟨onChain, stops⟩ : OnChain reader.setting level least parent reading state after ∧
      level.Stops least after := by
    refine iterate?_induct _
      (fun _ _ state after => OnChain reader.setting level least parent reading state after ∧
        level.Stops least after) ?_ ?_ reader.setting.rounds _ start starts
      (fits.onward holding.onward).rounds readLoop
    · rintro ⟨_, last⟩ middle final after ⟨rfl, stops, holds⟩ once
      obtain ⟨rfl, rfl, ends⟩ := read?_chainRound spell fits ⟨rfl, stops, holds⟩ once
      exact ⟨⟨rfl, stops, holds⟩, ends⟩
    · rintro ⟨_, last⟩ middle next after ⟨rfl, stops, holds⟩ once
      obtain ⟨kept, fewer⟩ := read?_chainRound spell fits ⟨rfl, stops, holds⟩ once
      exact ⟨kept, fewer, fun _ _ => id⟩
  refine ⟨onChain.finished, stops, onChain.holding.mono fun shape ends => ⟨ends.has, ?_⟩⟩
  intro table known isChain
  obtain ⟨previous, -, same, enough, chainable⟩ := ends.ends table known isChain
  rw [same]
  exact ⟨enough, chainable⟩

end Chains

/-! ### Fields and items -/

section Items

variable {value : Script Unit} {words : Language Shape} (later : Spells reader value fun _ => words)
include later

theorem spells_recordField (produced : field words ≤ production .recordField) :
    Spells reader (recordField value) fun _ => nodeWith .recordField (field words) := by
  intro reading
  refine Yields.inside (fun inner _ => Yields.seeKind ?_) produced
  split
  · next isLabel =>
      by_cases isLower : (inner.peek 0).kind = .lowerName
      · simp only [isLower]
        have alone : Spells reader (pure ()) fun _ => (1 : Language Shape) :=
          fun _ => yields_pure rfl
        refine .mono (.take isLower (by decide) fun _ => .ifEat (by decide) later alone)
          fun _ => ?_
        rw [mul_add, mul_one]
        exact sup_le_sup (mul_le_mul_left (token_le rfl) _) le_rfl
      · simp only [isLower]
        have fails : Spells reader (missing [.colon]) fun _ => (0 : Language Shape) :=
          fun _ => yields_of_none rfl
        refine .mono (.takeIn TokenKind.isLabel isLabel rfl fun _ _ =>
          .ifEat (by decide) later fails) fun _ => ?_
        rw [add_zero]
        exact le_sup_left
  · exact yields_of_none (read?_recover _ _ inner)

theorem spells_recordFields (produced : field words ≤ production .recordField) :
    Spells reader (recordFields value) fun _ =>
      maybe (Phrase.separated .comma (nodeWith .recordField (field words))) := fun _ =>
  .ifNotLook rfl fun _ =>
    spells_separated (by decide) (spells_recordField later produced) _

theorem spells_arrayItems : Spells reader (arrayItems value) fun _ =>
    maybe (Phrase.separated .comma words) := fun _ =>
  .ifNotLook rfl fun _ => spells_separated (by decide) later _

end Items

/-! ### Binders -/

theorem watches_seesNegativeNumber :
    Watches reader seesNegativeNumber fun sights => isMinus (sights 0) &&
      (decide ((sights 1).kind = .integer) || decide ((sights 1).kind = .number)) :=
  (watches_seesOperator "-").and
    (watches_kindAt_is 1 fun kind => kind = .integer || kind = .number)

theorem watches_seesBinderAtom :
    Watches reader seesBinderAtom fun sights => isBinderAtomStart (sights 0).kind ||
      (isMinus (sights 0) &&
        (decide ((sights 1).kind = .integer) || decide ((sights 1).kind = .number))) :=
  watches_kindAt_or watches_seesNegativeNumber

section Binders

variable (spell : RulesSpell reader)
include spell

theorem yields_binder : Yields reader reading (ignore (.call .binder)) fun _ => binder :=
  (spell.binder reading).yields.ignore

theorem yields_binderAtom : Yields reader reading (ignore (.call .binderAtom)) fun _ => binder :=
  ((spell.binderAtom reading).mono fun _ has =>
    has.mono fun _ => Level.accepts_of_takes).yields.ignore

theorem yields_binderAtomBody :
    Yields reader reading binderAtomBody (producedIn (Level.takes .binder)) := by
  refine Yields.seeKind ?_
  split
  · next isLiteral =>
      exact (Yields.lastIn TokenKind.isLiteral isLiteral rfl).answer
        (le_producedIn rfl le_sup_left)
  · split
    case h_1 seen =>
      exact (Yields.lastIn _ (decide_eq_true seen) rfl).answer
        (le_producedIn rfl le_rfl)
    case h_2 seen =>
      refine Yields.look rfl ?_
      split
      · next named =>
          refine .of_rest (.onTokenIn (fun kind => kind = .lowerName) (decide_eq_true seen) rfl
            fun second onSecond => .onTokenIn (fun kind => kind = .atSign)
              (decide_eq_true (by rw [onSecond]; exact named)) rfl fun third _ =>
                .on (yields_binderAtom spell) fun _ _ => yields_done ?_)
          rw [one_mul, mul_assoc]
          exact le_producedIn rfl le_rfl
      · exact (Yields.lastIn _ (decide_eq_true seen) rfl).answer
          (le_producedIn rfl le_rfl)
    case h_3 seen =>
      exact (Yields.lastIn _ (by rw [seen]; rfl) rfl).answer
        (le_producedIn rfl (le_mul_of_one_le_right' one_le_kstar))
    case h_4 seen =>
      exact (Yields.lastIn _ (by rw [seen]; rfl) rfl).answer
        (le_producedIn rfl (le_mul_of_one_le_right' one_le_kstar))
    case h_5 seen =>
      refine .of_rest (.onTokenIn (fun kind => kind = .openParen) (decide_eq_true seen) rfl
        fun _ _ => .on (yields_binder spell) fun _ _ => .on (spells_expectClosing .paren _)
          fun _ _ => yields_done ?_)
      rw [one_mul, mul_assoc]
      exact le_producedIn rfl le_rfl
    case h_6 seen =>
      refine .of_rest (.onTokenIn (fun kind => kind = .openSquare) (decide_eq_true seen) rfl
        fun _ _ => .on (spells_arrayItems (fun _ => yields_binder spell) _) fun _ _ =>
          .on (spells_expectClosing .square _) fun _ _ => yields_done ?_)
      rw [one_mul, mul_assoc]
      exact le_producedIn rfl le_rfl
    case h_7 seen =>
      refine .of_rest (.onTokenIn (fun kind => kind = .openBrace) (decide_eq_true seen) rfl
        fun _ _ => .on (spells_recordFields (fun _ => yields_binder spell) ?_ _) fun _ _ =>
          .on (spells_expectClosing .brace _) fun _ _ => yields_done ?_)
      · exact field_mono le_sup_right
      · rw [one_mul, mul_assoc]
        exact le_producedIn rfl le_rfl
    case h_8 =>
      refine Yields.test watches_seesNegativeNumber (fun isNegative => ?_)
        fun _ => yields_of_none rfl
      rw [Bool.and_eq_true] at isNegative
      refine .of_rest (.onToken isMinus isNegative.1 (notEnd_of_isMinus isNegative.1)
        fun second onSecond => .onTokenIn (fun kind => kind = .integer || kind = .number)
          (by rw [onSecond]; exact isNegative.2) rfl fun _ _ => yields_done ?_)
      rw [one_mul]
      exact le_producedIn rfl le_sup_right

theorem hands_binderAtomRule :
    Hands reader reading reading binderAtomRule (HasKind (Level.takes .binder)) :=
  .enter fun _ _ => .thenLeave (.nodeIn fun _ _ => yields_binderAtomBody spell)

theorem spells_binderAtoms : Spells reader binderAtoms fun _ => binder∗ :=
  spells_whileSeen watches_seesBinderAtom fun _ _ => yields_binderAtom spell

theorem hands_binderOperand :
    Hands reader reading reading binderOperand (HasKind (Level.takes .binder)) := by
  refine Hands.test (watches_seesAny classNames) (fun seen => ?_) fun _ => spell.binderAtom reading
  refine Hands.nodeKind rfl fun inner sights => ?_
  exact .takeIn _ (by rw [sights]; exact seen) rfl
    fun after _ => spells_binderAtoms spell after

theorem hands_binderRule : Hands reader reading reading binderRule (HasKind NodeKind.isBinder) :=
  .enter fun inner _ => .thenLeave (Hands.suffixed ((spell.chain .binder 0 none).hands inner)
    (fun _ seen => .take seen (by decide) fun _ => yields_type spell)
    (le_refl _) (fun _ accepted => accepted)
    fun _ holds => holds.hasKind rfl)

end Binders

end Offside.Grammar
