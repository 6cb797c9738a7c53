import Offside.Proofs.SpelledExpressions

/-!
# Declarations spell their productions

If the rules hand on what they promise, so do the scripts of declarations, of
the lists of imports and exports, and of the members of classes and instances.
-/

namespace Offside.Grammar

open Offside.Phrase
open scoped Computability

variable {reader : Reader} {reading : Reading}

/-! ### Identifiers with a meaning of their own -/

theorem notEnd_of_word {spelling : String} (seen : (decide ((reading.peek 0).kind = .lowerName) &&
      decide ((reading.peek 0).text = spelling)) = true) : (reading.peek 0).kind ≠ .eof := by
  rw [Bool.and_eq_true, decide_eq_true_eq] at seen
  rw [seen.1]
  decide

theorem Yields.takeWord {α : Type} {next : Script α} {language : α → Language Shape}
    {spelling : String} (seen : (decide ((reading.peek 0).kind = .lowerName) &&
      decide ((reading.peek 0).text = spelling)) = true)
    (later : ∀ after, reading.SeesNext after → Yields reader after next language) :
    Yields reader reading (Script.bump >>= fun _ => next)
      fun value => word spelling * language value :=
  .bump (fun sight => sight.kind = .lowerName && sight.text = spelling) seen
    (notEnd_of_word seen) later

section Declarations

variable (spell : RulesSpell reader)
include spell

/-! ### Values -/

theorem yields_signature (isName : (reading.peek 0).kind = .lowerName)
    (isTyped : (reading.peek 1).kind = .doubleColon) :
    Yields reader reading signature fun _ => Phrase.node .signature := by
  refine .insideKind fun inner sights => ?_
  exact .takeIn _ (by rw [sights]; exact decide_eq_true isName) rfl
    fun after onAfter => .take (by rw [onAfter, sights]; exact isTyped) (by decide) fun _ =>
      yields_type spell

theorem yields_valueDecl (isName : (reading.peek 0).kind = .lowerName) :
    Yields reader reading valueDecl fun _ => Phrase.node .valueDecl := by
  refine .insideKind fun inner sights => ?_
  exact .take (by rw [sights]; exact isName) (by decide) fun _ =>
    .then (spells_binderAtoms spell _) fun _ => spells_rhs spell (.inl rfl)

theorem spells_localDeclRule : Spells reader localDeclRule fun _ => localDecl := by
  intro reading
  refine .look rfl (.look rfl ?_)
  split
  · next isSignature =>
      rw [Bool.and_eq_true, decide_eq_true_eq, decide_eq_true_eq] at isSignature
      exact .answer (yields_signature spell isSignature.1 isSignature.2)
        (node_le rfl)
  · refine .look rfl ?_
    split
    · next isValue =>
        rw [Bool.and_eq_true, decide_eq_true_eq] at isValue
        exact .answer (yields_valueDecl spell isValue.1)
          (node_le rfl)
    · refine .test watches_seesBinderAtom (fun _ => ?_)
        fun _ => yields_of_none (read?_bind_of_none (read?_recover _ _ reading))
      have binding : Yields reader reading (inside .patternBinding do
          ignore (.call .binder)
          Grammar.rhs .equals) fun _ => Phrase.node .patternBinding :=
        .insideKind fun inner _ => .then (yields_binder spell) fun _ => spells_rhs spell (.inl rfl)
      exact binding.answer (node_le rfl)

/-! ### Types -/

theorem spells_typeVarBindings :
    Spells reader typeVarBindings fun _ => (Phrase.node .typeVarBinding)∗ :=
  spells_whileSeen (watches_seesAny _) fun reading _ => spells_typeVarBinding spell reading

theorem spells_dataCtor : Spells reader dataCtor fun _ => Phrase.node .dataCtor := by
  intro reading
  refine .test (watches_sees .upperName) (fun seen => ?_)
    fun _ => yields_of_none (read?_recover _ _ reading)
  refine .insideKind fun inner sights => ?_
  exact .take (by rw [sights]; exact of_decide_eq_true seen) (by decide) (spells_typeAtoms spell)

theorem yields_kindOr {body : Script NodeKind} {done : Language Shape}
    {whole : Option NodeKind → Language Shape}
    (kinded : done * (token .doubleColon * type) ≤ whole (some .kindSignature))
    (later : Spells reader body fun kind => rest done (whole (some kind))) :
    Yields reader reading (kindOr body) fun kind? => rest done (whole kind?) :=
  .onEat (by decide) (fun _ => .on (yields_type spell) fun _ _ =>
    yields_done (by rw [mul_assoc]; exact kinded)) fun reading => .map (later reading)

theorem yields_dataDecl (seen : (reading.peek 0).kind = .keyword .dataWord) :
    Yields reader reading dataDecl fun _ => nodeIn NodeKind.isDecl := by
  refine (Hands.nodeIn fun inner sights => ?_).yields.ignore
  rw [← sights] at seen
  refine .of_rest (.onTokenIn (fun kind => kind = .keyword .dataWord) (decide_eq_true seen) rfl
    fun _ _ => .on (yields_expect (by decide)).ignore fun _ _ => yields_kindOr spell ?_ fun _ =>
      .on (spells_typeVarBindings spell _) fun _ _ =>
        .onEatPart (by decide) (spells_separated (by decide) (spells_dataCtor spell)) fun _ _ =>
          yields_done ?_)
  · rw [one_mul, mul_assoc]
    refine le_producedIn rfl (le_sup_of_le_left (mul_le_mul_left ?_ _))
    exact le_sup_of_le_left le_sup_left
  · rw [one_mul, mul_assoc, mul_assoc, ← mul_assoc (token .upperName)]
    exact le_producedIn rfl le_rfl

omit spell in
theorem watches_seesRoles :
    Watches reader seesRoles fun sights =>
      (decide ((sights 0).kind = .lowerName) && decide ((sights 0).text = "role")) &&
        decide ((sights 1).kind = .upperName) :=
  (watches_seesWord "role").and (watches_kindAt_is 1 fun kind => kind = .upperName)

theorem yields_typeDecl (seen : (reading.peek 0).kind = .keyword .typeWord) :
    Yields reader reading typeDecl fun _ => nodeIn NodeKind.isDecl := by
  refine (Hands.nodeIn fun inner sights => ?_).yields.ignore
  rw [← sights] at seen
  refine .of_rest (.onTokenIn (fun kind => kind = .keyword .typeWord) (decide_eq_true seen) rfl
    fun after _ => .test watches_seesRoles (fun roles => ?_) fun _ => ?_)
  · rw [Bool.and_eq_true] at roles
    refine .onToken (fun sight => sight.kind = .lowerName && sight.text = "role") roles.1
      (notEnd_of_word roles.1) fun second onSecond => ?_
    refine .onTokenIn (fun kind => kind = .upperName) (by rw [onSecond]; exact roles.2) rfl
      fun third _ => .on (spells_whileSeen (watches_sees .lowerName) (fun _ isRole =>
        .lastIn (fun kind => kind = .lowerName) isRole rfl) third) fun _ _ => yields_done ?_
    rw [one_mul, mul_assoc, mul_assoc]
    exact le_producedIn rfl le_rfl
  · refine .on (yields_expect (by decide)).ignore fun _ _ => yields_kindOr spell ?_ fun _ =>
      .on (spells_typeVarBindings spell _) fun _ _ => .onExpect (by decide) fun _ =>
        .on (yields_type spell) fun _ _ => yields_done ?_
    · rw [one_mul, mul_assoc]
      refine le_producedIn rfl (le_sup_of_le_left (mul_le_mul_left ?_ _))
      exact le_sup_of_le_left le_sup_right
    · rw [one_mul, mul_assoc, mul_assoc, mul_assoc, ← mul_assoc (token .upperName)]
      exact le_producedIn rfl le_rfl

theorem spells_newtypeCtor : Spells reader newtypeCtor fun _ => Phrase.node .dataCtor := by
  intro reading
  refine .test (watches_sees .upperName) (fun seen => ?_)
    fun _ => yields_of_none rfl
  refine .insideKind fun inner sights => ?_
  refine .take (by rw [sights]; exact of_decide_eq_true seen) (by decide) fun after =>
    .test watches_seesTypeAtom (fun _ => ?_) fun _ => yields_of_none rfl
  exact (yields_typeAtom spell).mono fun _ => le_kstar

theorem yields_newtypeDecl (seen : (reading.peek 0).kind = .keyword .newtypeWord) :
    Yields reader reading newtypeDecl fun _ => nodeIn NodeKind.isDecl := by
  refine (Hands.nodeIn fun inner sights => ?_).yields.ignore
  rw [← sights] at seen
  refine .of_rest (.onTokenIn (fun kind => kind = .keyword .newtypeWord) (decide_eq_true seen) rfl
    fun _ _ => .on (yields_expect (by decide)).ignore fun _ _ => yields_kindOr spell ?_ fun _ =>
      .on (spells_typeVarBindings spell _) fun _ _ => .onExpect (by decide) fun _ =>
        .on (spells_newtypeCtor spell _) fun _ _ => yields_done ?_)
  · rw [one_mul, mul_assoc]
    exact le_producedIn rfl (le_sup_of_le_left (mul_le_mul_left le_sup_right _))
  · rw [one_mul, mul_assoc, mul_assoc, mul_assoc, ← mul_assoc (token .upperName)]
    exact le_producedIn rfl le_rfl

/-! ### Classes -/

omit spell in
theorem yields_eatSuperclassArrow :
    Yields reader reading eatSuperclassArrow
      fun answer => if answer = true then tokenWhere isSuperclassArrow else 1 := by
  refine .look (watches_peek 0 reading) ?_
  split
  · next seen =>
      refine .answer (.last isSuperclassArrow seen ?_) le_rfl
      rw [isSuperclassArrow, Bool.and_eq_true, decide_eq_true_eq] at seen
      rw [seen.1]
      decide
  · exact yields_pure rfl

theorem spells_superclasses : Spells reader Grammar.superclasses fun _ =>
    Phrase.node .constraints * tokenWhere isSuperclassArrow := by
  intro reading
  refine .then (spells_constraints spell reading) fun _ after => ?_
  refine .mono (.ifTakenOr yields_eatSuperclassArrow (fun _ => yields_pure rfl) fun reading =>
    read?_bind_of_none (read?_recover _ _ reading)) fun _ => (mul_one _).le

omit spell in
theorem spells_lowerNames : Spells reader lowerNames fun _ => (token .lowerName)∗ := by
  have names : Spells reader lowerNames fun _ => (token .lowerName * 1)∗ :=
    spells_whileEat (by decide) fun _ => yields_pure rfl
  rwa [mul_one] at names

omit spell in
theorem spells_funDep : Spells reader funDep fun _ => Phrase.node .funDep := fun _ =>
  .insideKind fun inner _ => .then (spells_lowerNames inner) fun _ _ =>
    .then (yields_expect (by decide)).ignore fun _ => spells_lowerNames

omit spell in
theorem yields_funDeps (seen : (reading.peek 0).kind = .pipe) :
    Yields reader reading funDeps fun _ => Phrase.node .funDeps :=
  .insideKind fun inner sights => .take (by rw [sights]; exact seen) (by decide)
    (spells_separated (by decide) spells_funDep)

theorem spells_classMember : Spells reader classMember fun _ => Phrase.node .signature := by
  intro reading
  refine .look rfl (.look rfl ?_)
  split
  · next isSignature =>
      rw [Bool.and_eq_true, decide_eq_true_eq, decide_eq_true_eq] at isSignature
      exact yields_signature spell isSignature.1 isSignature.2
  · exact yields_of_none (read?_recover _ _ reading)

variable {words : Language Shape}

omit spell in
theorem spells_body {kind : NodeKind} {item : Script Unit}
    (later : Spells reader item fun _ => words)
    (produced : keyword .whereWord * Phrase.block words ≤ production kind)
    [simple_ : Decided (isSimple kind)] :
    Spells reader (body kind item) fun _ => maybe (Phrase.node kind) := fun reading =>
  .ifLook (watches_sees _ reading) fun seen => .insideKind (fun inner sights =>
    .mono (.take (by rw [sights]; exact of_decide_eq_true seen) (by decide) (spells_block later))
      fun _ => produced)

theorem yields_classDecl (seen : (reading.peek 0).kind = .keyword .classWord) :
    Yields reader reading classDecl fun _ => nodeIn NodeKind.isDecl := by
  refine (Hands.nodeIn fun inner sights => ?_).yields.ignore
  rw [← sights] at seen
  refine .of_rest (.onTokenIn (fun kind => kind = .keyword .classWord) (decide_eq_true seen) rfl
    fun _ _ => .onPart rfl (fun _ => spells_superclasses spell _) fun _ _ =>
      .on (yields_expect (by decide)).ignore fun _ _ => yields_kindOr spell ?_ fun _ =>
        .on (spells_typeVarBindings spell _) fun _ third =>
          .onPart rfl (fun isDep => yields_funDeps (of_decide_eq_true isDep))
            fun _ _ => .on (spells_body (spells_classMember spell) le_rfl _) fun _ _ =>
              yields_done ?_)
  · rw [one_mul, mul_assoc, mul_assoc]
    exact le_producedIn rfl le_sup_right
  · rw [one_mul, mul_assoc, mul_assoc, mul_assoc, mul_assoc, ← mul_assoc (token .upperName)]
    exact le_producedIn rfl le_rfl

/-! ### Instances -/

theorem spells_instanceHead : Spells reader Grammar.instanceHead fun _ => Phrase.instanceHead := by
  have context : Spells reader (do
      if (← Script.search (fun sight => sight.kind = .fatArrow) [.keyword .whereWord]) then
        constraints
        ignore (expect .fatArrow)
      constraint) fun _ =>
        maybe (Phrase.node .constraints * token .fatArrow) * Phrase.node .constraint := by
    intro reading
    refine .look rfl ?_
    split
    · refine .mono (.then (spells_constraints spell reading) fun _ _ =>
        .then (yields_expect (by decide)).ignore fun _ => spells_constraint spell) fun _ => ?_
      rw [← mul_assoc]
      exact mul_le_mul_left le_sup_right _
    · exact (spells_constraint spell reading).mono fun _ => le_mul_of_one_le_left' le_sup_left
  intro reading
  refine .look rfl (.look rfl ?_)
  split
  · next isNamed =>
      rw [Bool.and_eq_true, decide_eq_true_eq, decide_eq_true_eq] at isNamed
      refine .mono (.takeIn (fun kind => kind = .lowerName) (decide_eq_true isNamed.1) rfl
        fun second onSecond => .takeIn (fun kind => kind = .doubleColon)
          (by rw [onSecond]; exact decide_eq_true isNamed.2) rfl fun third _ => context third)
            fun _ => ?_
      rw [← mul_assoc]
      exact mul_le_mul_left le_sup_right _
  · exact (context reading).mono fun _ => le_mul_of_one_le_left' le_sup_left

theorem spells_instanceDecl :
    Spells reader instanceDecl fun _ => Phrase.node .instanceDecl := fun _ =>
  .insideKind fun inner _ => .then (yields_expect (by decide)).ignore fun _ _ =>
    .then (spells_instanceHead spell _) fun _ =>
      spells_body (fun reading => (spell.localDecl reading).ignore) le_rfl

section Links

omit spell

theorem spells_elseEnd : Spells reader (do
    ignore (eat .layoutSep)
    pure (ForInStep.yield ())) (yieldOf (maybe (token .layoutSep))) := fun reading =>
  (spells_ignoreEat (by decide) reading).answer le_rfl

theorem spells_instanceLink : Spells reader instanceLink (roundOf instanceJoint) := by
  have ends : Spells reader (pure (ForInStep.done ())) (doneOf 1) :=
    fun _ => yields_pure rfl
  intro reading
  refine .look rfl (.look rfl ?_)
  split
  · next isLink =>
      rw [Bool.and_eq_true] at isLink
      refine .mono (.takeIn (fun kind => kind = .layoutSep) isLink.1 rfl fun second onSecond =>
        .eatSeen (by decide) ?_ spells_elseEnd) fun step => ?_
      · rw [onSecond]
        exact of_decide_eq_true isLink.2
      · cases step with
        | done => simp [yieldOf]
        | yield => exact mul_le_mul_left le_sup_right _
  · refine .mono (.ifEat (by decide) spells_elseEnd ends) fun step => ?_
    cases step with
    | done => simp [yieldOf, doneOf, roundOf]
    | yield =>
      rw [doneOf, add_zero]
      exact le_mul_of_one_le_left' le_sup_left

theorem fewer_elseLink {after : Reading} (fits : reading.Fits reader.setting)
    (read : elseLink.read? reader reading = some (.yield (), after)) :
    after.kinds.length < reading.kinds.length := by
  obtain ⟨⟨answer, middle⟩, readEat, readRest⟩ := Option.bind_eq_some_iff.mp read
  have eaten : Yields reader reading (eat (.keyword .elseWord)) _ :=
    yields_eat (by decide)
  have adds := eaten fits answer middle readEat
  cases answer with
  | false => cases readRest
  | true =>
    have ended := spells_elseEnd middle (fits.onward adds.onward) _ after readRest
    rw [read?_eat_true (by decide) readEat]
    exact Nat.lt_succ_of_le ended.onward.kept.length_le

theorem fewer_instanceLink {after : Reading} (fits : reading.Fits reader.setting)
    (read : instanceLink.read? reader reading = some (.yield (), after)) :
    after.kinds.length < reading.kinds.length := by
  rw [instanceLink, Script.read?_bind, watches_kindAt 1 reading] at read
  dsimp only [Option.bind_some] at read
  rw [Script.read?_bind, watches_sees .layoutSep reading] at read
  dsimp only [Option.bind_some] at read
  split at read
  · next isLink =>
      rw [Bool.and_eq_true] at isLink
      obtain ⟨⟨_, middle⟩, readBump, readRest⟩ := Option.bind_eq_some_iff.mp read
      have taken : Yields reader reading Script.bump _ :=
        .lastIn (fun kind => kind = .layoutSep) isLink.1 rfl
      have onward := (taken fits () middle readBump).onward
      exact Nat.lt_of_lt_of_le (fewer_elseLink (fits.onward onward) readRest)
        onward.kept.length_le
  · exact fewer_elseLink fits read

end Links

theorem yields_instanceChain :
    Yields reader reading instanceChain fun _ => Phrase.node .instanceChain := by
  exact .insideKind fun inner _ => spells_joined (spells_instanceDecl spell) spells_instanceLink
    (fun _ _ fits => fewer_instanceLink fits) inner

theorem yields_deriveDecl (seen : (reading.peek 0).kind = .keyword .deriveWord) :
    Yields reader reading deriveDecl fun _ => Phrase.node .deriveDecl :=
  .insideKind fun inner sights => .take (by rw [sights]; exact seen) (by decide) fun _ =>
    .then (spells_ignoreEat (by decide) _) fun _ _ =>
      .then (yields_expect (by decide)).ignore fun _ => spells_instanceHead spell

/-! ### Foreign imports -/

theorem yields_foreignDecl (seen : (reading.peek 0).kind = .keyword .foreignWord) :
    Yields reader reading foreignDecl fun _ => nodeIn NodeKind.isDecl := by
  refine (Hands.nodeIn fun inner sights => ?_).yields.ignore
  rw [← sights] at seen
  refine .of_rest (.onTokenIn (fun kind => kind = .keyword .foreignWord) (decide_eq_true seen) rfl
    fun _ _ => .on (yields_expect (by decide)).ignore fun _ _ =>
      .on (yields_eat (by decide)) fun isData _ => ?_)
  cases isData with
  | true =>
    refine .on (yields_expect (by decide)).ignore fun _ _ => .onExpect (by decide) fun _ =>
      .on (yields_type spell) fun _ _ => yields_done ?_
    simp only [if_true, one_mul, mul_assoc]
    exact le_producedIn rfl le_rfl
  | false =>
    refine .on (yields_expect (by decide)).ignore fun _ _ => .onExpect (by decide) fun _ =>
      .on (yields_type spell) fun _ _ => yields_done ?_
    simp only [Bool.false_eq_true, if_false, one_mul, mul_assoc]
    exact le_producedIn rfl le_rfl

/-! ### Fixities -/

section Fixities

omit spell

theorem yields_precedence : Yields reader reading precedence fun _ => token .integer := by
  refine .look rfl ?_
  split
  · next seen =>
      exact .answer (.lastIn _ (decide_eq_true seen) rfl) le_rfl
  · exact yields_of_none rfl

theorem yields_eatWord (spelling : String) :
    Yields reader reading (eatWord spelling)
      fun answer => if answer = true then word spelling else 1 :=
  .test (watches_seesWord spelling) (fun seen => .answer
      (.last (fun sight => sight.kind = .lowerName && sight.text = spelling) seen
        (notEnd_of_word seen)) le_rfl)
    fun _ => yields_pure rfl

theorem yields_declare {space : Namespace} {operator : String} {fixity : Fixity}
    {next : Bool → Script Unit} (later : ∀ answer after, reading.SeesAs after →
      Yields reader after (next answer) fun _ => words) :
    Yields reader reading (Script.declare space operator fixity >>= next)
      fun _ => words := by
  intro fits _ final read
  obtain ⟨⟨answer, after⟩, declared, readNext⟩ := Option.bind_eq_some_iff.mp read
  have kept : after.ahead = reading.ahead ∧ after.row = reading.row ∧
      after.position = reading.position ∧ after.neat = reading.neat ∧
      after.table? reader.setting = reading.table? reader.setting := by
    have same := Option.some.inj declared
    rw [Reading.declare] at same
    split at same <;> cases same
    · exact ⟨rfl, rfl, rfl, rfl, rfl⟩
    · refine ⟨rfl, rfl, rfl, rfl, ?_⟩
      rw [Reading.table?, Reading.table?]
      split <;> rfl
  have kinds : after.kinds = reading.kinds := by rw [Reading.kinds, kept.1, Reading.kinds]
  have opens : reading.Onward reader.setting after :=
    ⟨by rw [kinds], by rw [kinds, kept.2.2.1], kept.2.2.2.2, kept.2.2.2.1.trans⟩
  have sights : reading.SeesAs after := by
    funext index
    rw [Reading.peek, kept.1]
    rfl
  obtain ⟨onward, added⟩ := later answer after sights (fits.onward opens) () final readNext
  rw [kept.2.1, kept.2.2.2.2] at added
  exact ⟨opens.trans onward, added⟩

theorem yields_declaredOperator (space : Namespace) (associativity : Associativity)
    (precedence : Option Nat) :
    Yields reader reading (declaredOperator space associativity precedence)
      fun _ => tokenIn DeclaredFixity.isOperator := by
  refine .look rfl ?_
  split
  · next isOperator =>
      have take : ∀ conflicts after, reading.SeesAs after → Yields reader after
          (if conflicts = true then
            Script.fault (.fixity (.conflictingFixity (reading.peek 0).text)) [] Script.bump
          else Script.bump) fun _ => tokenIn DeclaredFixity.isOperator := by
        intro conflicts after sights
        cases conflicts with
        | true => exact yields_of_none rfl
        | false => exact .lastIn DeclaredFixity.isOperator (by rw [sights]; exact isOperator) rfl
      cases precedence with
      | some precedence => exact yields_declare take
      | none => exact .look rfl (take false reading rfl)
  · exact yields_of_none rfl

theorem yields_fixityDecl {associativity : Associativity}
    (seen : (DeclaredFixity.associativity? (reading.peek 0).kind).isSome = true) :
    Yields reader reading (fixityDecl associativity) fun _ => Phrase.node .fixityDecl := by
  have named : ∀ space precedence, Spells reader (do
      if (← kind).isName then Script.bump else missing [.lowerName, .upperName]
      unless (← eatWord "as") do
        missing [.lowerName]
      declaredOperator space associativity precedence) fun _ =>
        tokenIn TokenKind.isName * (word "as" * tokenIn DeclaredFixity.isOperator) := by
    intro space precedence reading
    refine .seeKind ?_
    split
    · next isName =>
        exact .takeIn TokenKind.isName isName rfl fun _ _ => .ifTakenOr (yields_eatWord "as")
          (fun _ => yields_declaredOperator space associativity precedence) fun _ =>
            read?_bind_of_none rfl
    · exact yields_of_none rfl
  refine .insideKind fun inner sights => ?_
  exact .takeIn _
    (by rw [sights]; exact seen) rfl fun _ _ => .then yields_precedence fun precedence _ =>
      .then (yields_eat_maybe (by decide)) fun isType => named _ precedence

end Fixities

/-! ### Imports and exports -/

section Items

omit spell

theorem spells_moduleName : Spells reader moduleName fun _ => Phrase.node .moduleName := by
  intro reading
  refine .test (watches_seesAny classNames) (fun seen => ?_)
    fun _ => yields_of_none rfl
  have produced : properName ≤ rowsOf (reading.table? reader.setting) .moduleName := by
    refine fun row member => ⟨member, fun _ _ level same => ?_⟩
    cases level <;> cases same
  refine (Yields.insideToken (fun sight => classNames.contains sight.kind) seen
    (notEnd_of_test classNames.contains seen rfl) produced).mono fun _ => one_mono ?_
  rintro _ ⟨row, rfl, -⟩
  exact ⟨_, row, rfl, decide_eq_true rfl⟩

theorem yields_operatorInParens (seen : (reading.peek 0).kind = .openParen) :
    Yields reader reading operatorInParens fun _ =>
      between .paren Phrase.operatorName := by
  refine .take seen (by decide) fun after => .test (watches_seesAny _) (fun isOperator => ?_)
    fun _ => yields_of_none rfl
  refine .takeIn _ ?_ rfl
    fun _ _ => (yields_expect (by decide)).ignore
  simpa [or_comm, or_left_comm] using isOperator

theorem yields_dataMembers (seen : (reading.peek 0).kind = .openParen) :
    Yields reader reading dataMembers fun _ => Phrase.node .dataMembers := by
  refine .insideKind fun inner sights => ?_
  have item : Spells reader (do
      unless (← eat .upperName) do
        recover [.upperName] [.comma]) fun _ => token .upperName * 1 := fun _ =>
    .ifTakenOr (yields_eat (by decide)) (fun _ => yields_pure rfl) fun reading =>
      read?_recover _ _ reading
  rw [mul_one] at item
  have close : Spells reader (ignore (expect .closeParen)) fun _ => token .closeParen :=
    fun _ => (yields_expect (by decide)).ignore
  have listed : Spells reader (do
      unless (← sees .closeParen) do
        Grammar.separated .comma do
          unless (← eat .upperName) do
            recover [.upperName] [.comma]
      ignore (expect .closeParen)) fun _ =>
        maybe (Phrase.separated .comma (token .upperName)) * token .closeParen := fun reading =>
    .unlessLook rfl
      (fun _ => spells_separated (by decide) item reading) fun _ => close
  refine .take (by rw [sights]; exact seen) (by decide) fun _ =>
    .mono (.ifEat (by decide) close listed) fun _ => ?_
  rw [← add_mul]
  exact le_rfl

theorem watches_seesKindItem :
    Watches reader seesKindItem fun sights =>
      (decide ((sights 0).kind = .lowerName) && decide ((sights 0).text = "kind")) &&
        decide ((sights 1).kind = .upperName) :=
  (watches_seesWord "kind").and (watches_kindAt_is 1 fun kind => kind = .upperName)

theorem Yields.item {kind : NodeKind} {accepts : NodeKind → Bool} {body : Script Unit}
    (accepted : accepts kind = true) (later : ∀ inner, reading.SeesAs inner →
      Yields reader inner body fun _ => production kind)
    [simple_ : Decided (isSimple kind)] :
    Yields reader reading (Grammar.inside kind body) fun _ => nodeIn accepts :=
  (Yields.insideKind later).mono fun _ => node_le accepted

theorem spells_importItem : Spells reader importItem fun _ => nodeIn isImportItem := by
  intro reading
  refine .seeKind ?_
  split
  case h_1 seen =>
    refine .test watches_seesKindItem (fun isKind => ?_) fun _ => ?_
    · rw [Bool.and_eq_true] at isKind
      exact .item rfl fun inner sights => .takeWord (by rw [sights]; exact isKind.1)
        fun after onAfter => .lastIn _
          (by rw [onAfter, sights]; exact isKind.2) rfl
    · exact .item rfl fun inner sights => .lastIn _
        (by rw [sights]; exact decide_eq_true seen) rfl
  case h_2 seen =>
    exact .item rfl fun inner sights => yields_operatorInParens (by rw [sights]; exact seen)
  case h_3 seen =>
    exact .item rfl fun inner sights => .take (by rw [sights]; exact seen) (by decide) fun _ =>
      .ifLook rfl fun isOpen =>
        yields_dataMembers (of_decide_eq_true isOpen)
  case h_4 seen =>
    exact .item rfl fun inner sights => .take (by rw [sights]; exact seen) (by decide) fun _ =>
      .test (watches_sees .openParen)
        (fun isOpen => yields_operatorInParens (of_decide_eq_true isOpen))
        fun _ => yields_of_none rfl
  case h_5 seen =>
    exact .item rfl fun inner sights => .take (by rw [sights]; exact seen) (by decide) fun _ =>
      (yields_expect (by decide)).ignore
  case h_6 => exact yields_of_none (read?_recover _ _ reading)

theorem spells_exportItem : Spells reader exportItem fun _ => nodeIn isExportItem := by
  intro reading
  refine .test (watches_sees _) (fun seen => ?_) fun _ => ?_
  · exact .item rfl fun inner sights =>
      .take (by rw [sights]; exact of_decide_eq_true seen) (by decide) spells_moduleName
  · exact (spells_importItem reading).mono fun _ => nodeIn_mono fun kind accepted => by
      rw [isExportItem, accepted]
      rfl

theorem yields_itemList {item : Script Unit} (later : Spells reader item fun _ => words)
    (seen : (reading.peek 0).kind = .openParen) :
    Yields reader reading (itemList item) fun _ => listed .paren words := by
  have entry : Spells reader (do
      item
      unless (← seesAny [.comma, .closeParen]) do
        recover [.comma, .closeParen] [.comma]) fun _ => words * 1 := fun reading =>
    .then (later reading) fun _ after => .test (watches_seesAny _) (fun _ => yields_pure rfl)
      fun _ => yields_of_none (read?_recover _ _ after)
  rw [mul_one] at entry
  have empty : Spells reader (pure ()) fun _ => (1 : Language Shape) :=
    fun _ => yields_pure rfl
  refine .take seen (by decide) fun _ => .mono (.ifEat (by decide) empty fun reading =>
    .then (spells_separated (by decide) entry reading) fun _ _ =>
      (yields_expect (by decide)).ignore) fun _ => ?_
  rw [mul_one, maybe, add_mul, one_mul]

theorem yields_importDecl (seen : (reading.peek 0).kind = .keyword .importWord) :
    Yields reader reading importDecl fun _ => Phrase.node .importDecl := by
  have named : Spells reader (do
      if (← seesWord "as") then
        inside .importAlias do
          Script.bump
          moduleName) fun _ => maybe (Phrase.node .importAlias) := fun reading =>
    .ifLook rfl fun isAs => .insideKind fun inner sights =>
      .takeWord (by rw [sights]; exact isAs) fun after _ => spells_moduleName after
  have hidden : ∀ reading, Yields reader reading (ignore (eatWord "hiding"))
      fun _ => maybe (word "hiding") := fun reading =>
    .ignore ((yields_eatWord "hiding").mono fun answer => by
      cases answer with
      | true => exact le_sup_right
      | false => exact le_sup_left)
  exact .insideKind fun inner sights => .take (by rw [sights]; exact seen) (by decide) fun _ =>
    .then (spells_moduleName _) fun _ _ => .then (hidden _) fun _ third =>
      .whenLook rfl (fun isOpen => .insideKind fun list onList =>
        yields_itemList spells_importItem (by rw [onList]; exact of_decide_eq_true isOpen))
        fun _ => named

end Items

/-! ### Top level -/

theorem spells_decl : Spells reader decl fun _ => nodeIn NodeKind.isDecl := by
  intro reading
  refine .seeKind ?_
  split
  case h_1 seen => exact (yields_importDecl seen).mono fun _ => node_le rfl
  case h_2 seen => exact yields_foreignDecl spell seen
  case h_3 seen => exact yields_dataDecl spell seen
  case h_4 seen => exact yields_typeDecl spell seen
  case h_5 seen => exact yields_newtypeDecl spell seen
  case h_6 seen => exact yields_classDecl spell seen
  case h_7 => exact (yields_instanceChain spell).mono fun _ => node_le rfl
  case h_8 seen => exact (yields_deriveDecl spell seen).mono fun _ => node_le rfl
  case h_9 seen => exact (yields_fixityDecl (by rw [seen]; rfl)).mono fun _ => node_le rfl
  case h_10 seen => exact (yields_fixityDecl (by rw [seen]; rfl)).mono fun _ => node_le rfl
  case h_11 seen => exact (yields_fixityDecl (by rw [seen]; rfl)).mono fun _ => node_le rfl
  case h_12 seen =>
    refine .look rfl ?_
    split
    · next isTyped => exact (yields_signature spell seen isTyped).mono fun _ => node_le rfl
    · exact (yields_valueDecl spell seen).mono fun _ => node_le rfl
  case h_13 => exact yields_of_none (read?_recover _ _ reading)

end Declarations

end Offside.Grammar
