import Offside.Proofs.Mirrors

/-!
# The grammar treats twins alike

Every production is put together from mirrored scripts, and the productions
that open a node around another one do so right after that one was finished.
So the rules are mirrored at every depth of calls, and with them the module.
-/

namespace Offside.Grammar

variable {pair : Pair} {rules : pair.Rules}

instance : Mirrored rules enter := by
  unfold enter
  infer_instance

/-! ### Operator chains -/

instance (level : Level) : Mirrored rules (operatorName level) := by
  refine .andThen fun sight => ?_
  split <;> infer_instance

instance (level : Level) : Mirrored rules (operatorAhead level) := by
  refine .andThen fun name => ?_
  split <;> infer_instance

instance (level : Level) (operator : ChainOperator) (conflict : Option FixityFault) :
    Mirrored rules (operatorNode level operator conflict) := by
  have unknown : Mirrored rules (isUnknown level operator) := by
    infer_instance
  refine ⟨fun twins => (unknown.agrees twins).bind fun unknown one two twins _ => ?_⟩
  have own : rules.Agrees (fun _ => True)
      (inside .operator do
        if (← sees .backtick) then backtickedName else Script.bump) one two :=
    .inside twins .operator
  have tips := own.tips trivial
  cases conflict with
  | some problem => exact ⟨rfl, (own.twins.blame tips _ _ _).1, False.elim⟩
  | none =>
    cases unknown with
    | true => exact ⟨rfl, (own.twins.blame tips _ _ _).1, False.elim⟩
    | false => exact ⟨rfl, own.twins, False.elim⟩

instance {operand : Script Bool} [first : Finishing rules operand] (level : Level)
    (least : Nat) (parent : Option ChainOperator) :
    Finishing rules (chain operand level least parent) := by
  refine ⟨fun twins => (first.agrees twins).bind fun finished _ _ twins tips => ?_⟩
  refine Pair.Rules.Agrees.bind
    (.loop (fun state _ _ twins (tips : state.1 = true → pair.Tips _ _) => ?_) twins tips)
    fun _ _ _ twins tips => .result twins tips
  refine (Pair.Rules.Agrees.looks twins tips).bind fun operator _ _ twins tips => ?_
  cases operator with
  | none => exact .result twins tips
  | some operator =>
    dsimp only
    split
    · exact .result twins tips
    · exact (Pair.Rules.Agrees.around twins tips level.nodeKind).bind
        fun _ _ _ twins tips => .result twins fun _ => tips trivial

/-! ### Types -/

instance (problem : LexFault) : Finishing rules (faultyAtom problem) :=
  ⟨fun twins => (Pair.Rules.Agrees.fault twins.takeTrivia _ _).bind fun _ _ _ twins tips =>
    .result twins fun _ => tips trivial⟩

instance : Mirrored rules parenthesizedType := by
  refine ⟨fun twins => (Finishing.agrees twins).bind fun finished _ _ twins tips =>
    (Pair.Rules.Agrees.looks twins tips).bind
      fun seen _ _ twins tips => ?_⟩
  split
  · exact (Pair.Rules.Agrees.around twins tips .typeKinded).bind fun _ _ _ twins _ =>
      .result twins False.elim
  · exact Mirrored.agrees twins

set_option synthInstance.maxSize 512 in
instance : Finishing rules typeAtom := by
  refine .andThen fun kind => ?_
  split <;> infer_instance

instance : Finishing rules typeApp :=
  .wrap .typeApp

instance : Finishing rules typeArrow :=
  .around .typeArrow

instance : Mirrored rules typeVarBinding := by
  refine .inside (.andThen fun kind => ?_) _
  split <;> infer_instance

instance : Finishing rules typeBody := by
  have constrained : Finishing rules (do
      let finished ← typeArrow
      if (← sees .fatArrow) then
        around finished .typeConstrained do
          Script.bump
          ignore (Script.call .type)
        pure true
      else pure finished) :=
    .around .typeConstrained
  infer_instance

/-! ### Binders -/

variable {item : Script Unit}

set_option synthInstance.maxSize 256 in
instance : Finishing rules binderAtomRule := by
  have body : Mirrored rules binderAtomBody := by
    refine .andThen fun kind => ?_
    split
    · infer_instance
    · split <;> infer_instance
  infer_instance

instance (kind : NodeKind) (rule : Rule) : Finishing rules (typedAs kind rule) :=
  .around kind

/-! ### Expressions and right-hand sides -/

set_option synthInstance.maxSize 512 in
instance : Finishing rules exprAtom := by
  refine .andThen fun kind => ?_
  split
  · infer_instance
  · split <;> infer_instance

instance : Finishing rules exprPostfix := by
  refine ⟨fun twins => (Finishing.agrees twins).bind fun finished _ _ twins tips => ?_⟩
  split
  · next isFinished =>
      refine Pair.Rules.Agrees.bind
        (.loop (fun _ _ _ twins (tips : True → pair.Tips _ _) => ?_) twins
          fun _ => tips isFinished)
        fun _ _ _ twins tips => .result twins fun _ => tips trivial
      refine (Pair.Rules.Agrees.looks twins tips).bind
        fun selects _ _ twins tips => ?_
      split
      · exact (Pair.Rules.Agrees.wrap twins (tips trivial) .exprRecordAccess).bind
          fun _ _ _ twins tips => .result twins tips
      · refine (Pair.Rules.Agrees.looks twins tips).bind
          fun updates _ _ twins tips => ?_
        split
        · exact (Pair.Rules.Agrees.wrap twins (tips trivial) .exprRecordUpdate).bind
            fun _ _ _ twins tips => .result twins tips
        · exact .result twins tips
  · exact .result twins nofun

instance : Finishing rules exprApp :=
  .wrap .exprApp

/-! ### Declarations -/

set_option synthInstance.maxSize 256 in
instance : NodeFirst rules valueDecl := by
  infer_instance

set_option synthInstance.maxSize 256 in
instance : NodeFirst rules dataDecl := by
  infer_instance

instance : NodeFirst rules typeDecl := by
  infer_instance

instance : NodeFirst rules newtypeDecl := by
  infer_instance

set_option synthInstance.maxSize 1024 in
instance : NodeFirst rules classDecl := by
  unfold classDecl
  infer_instance

set_option synthInstance.maxSize 4096 in
instance : NodeFirst rules instanceChain := by
  infer_instance

set_option synthInstance.maxSize 2048 in
instance : NodeFirst rules deriveDecl := by
  infer_instance

instance : NodeFirst rules foreignDecl := by
  infer_instance

instance (space : Namespace) (associativity : Associativity) (precedence : Option Nat) :
    Mirrored rules (declaredOperator space associativity precedence) := by
  unfold declaredOperator
  cases precedence <;> infer_instance

set_option synthInstance.maxSize 256 in
instance (associativity : Associativity) : NodeFirst rules (fixityDecl associativity) := by
  infer_instance

set_option synthInstance.maxSize 256 in
instance : Mirrored rules importItem := by
  refine .andThen fun kind => ?_
  split <;> infer_instance

set_option synthInstance.maxSize 256 in
instance : NodeFirst rules importDecl := by
  infer_instance

instance : Mirrored rules decl := by
  refine .andThen fun kind => ?_
  split <;> infer_instance

/-! ### Modules -/

set_option synthInstance.maxSize 256 in
instance : NodeFirst rules moduleHeader := by
  infer_instance

instance : Mirrored rules topLevelItem := by
  infer_instance

instance : Mirrored rules topLevel := by
  infer_instance

instance : Mirrored rules wholeModule := by
  infer_instance

/-! ### Rules -/

instance (level : Level) : Finishing rules (operandOf level) := by
  cases level <;> (unfold operandOf; infer_instance)

set_option synthInstance.maxSize 2048 in
instance (rule : Rule) : Finishing rules (scriptOf rule) := by
  cases rule <;> (unfold scriptOf; infer_instance)

theorem agree_runRule (pair : Pair) (bound : Nat) (rule : Rule) (one two : State)
    (twins : pair.Twins one two) :
    pair.Agree (· = true) (runRule pair.left.setting scriptOf bound rule one)
      (runRule pair.right.setting scriptOf bound rule two) := by
  induction bound generalizing rule one two with
  | zero => exact ⟨rfl, twins.report .syntactic [], nofun⟩
  | succ bound ih =>
    let deeper : pair.Rules :=
      ⟨runRule pair.left.setting scriptOf bound, runRule pair.right.setting scriptOf bound, ih⟩
    have agrees : deeper.Agrees (· = true) (scriptOf rule) one two := Finishing.agrees twins
    exact agrees

def Pair.allRules (pair : Pair) : pair.Rules where
  left := runRule pair.left.setting scriptOf (callBound pair.left.setting.rounds)
  right := runRule pair.right.setting scriptOf (callBound pair.right.setting.rounds)
  agree := by
    rw [pair.alike.rounds]
    exact agree_runRule pair _

theorem agree_execute (pair : Pair) {α : Type} (script : Script α)
    [Mirrored pair.allRules script] {one two : State} (twins : pair.Twins one two) :
    pair.Agree (fun _ => False) (script.execute pair.left.setting one)
      (script.execute pair.right.setting two) := by
  have agrees : pair.allRules.Agrees (fun _ => False) script one two := Mirrored.agrees twins
  exact agrees

end Offside.Grammar
