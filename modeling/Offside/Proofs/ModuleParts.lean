import Offside.Proofs.GrammarTermination

/-!
# The parts of a module

A whole module is read part by part.  Fixities are declared in parts of their
own, so what every other part upholds and what fixity declarations uphold
holds when the module has been read.
-/

namespace Offside.Grammar

/--
A part of a module that declares no fixity, with what is known about the tokens
ahead where it is run.
-/
inductive ModulePart : {α : Type} → Outlook → Script α → Prop where
  | result {α : Type} (value : α) : ModulePart (.tokens 0) (pure value : Script α)
  | position : ModulePart (.tokens 0) Script.position
  | sees (wanted : TokenKind) : ModulePart (.tokens 0) (sees wanted)
  | seesAny (wanted : List TokenKind) : ModulePart (.tokens 0) (seesAny wanted)
  | poll : ModulePart (.tokens 0) Script.poll
  | forgetBrackets : ModulePart (.tokens 0) Script.forgetBrackets
  | bump : ModulePart (.tokens 0) Script.bump
  | eat (wanted : TokenKind) : ModulePart (.tokens 0) (eat wanted)
  | expect (wanted : TokenKind) : ModulePart (.tokens 0) (ignore (expect wanted))
  | misfit : ModulePart (.tokens 0) (misfit [])
  | recover (expected : List TokenKind) : ModulePart (.tokens 0) (recover expected [])
  | separators : ModulePart (.tokens 0) (whileSeen (eat .layoutSep) (pure ()))
  | leftover : ModulePart (.tokens 0) (whileSeen seesMore (misfit []))
  | moduleHeader : ModulePart (.tokens 0) moduleHeader
  | importDecl : ModulePart (.tokens 1) importDecl
  | foreignDecl : ModulePart (.tokens 1) foreignDecl
  | dataDecl : ModulePart (.tokens 1) dataDecl
  | typeDecl : ModulePart (.tokens 1) typeDecl
  | newtypeDecl : ModulePart (.tokens 1) newtypeDecl
  | classDecl : ModulePart (.tokens 1) classDecl
  | instanceChain : ModulePart (.tokens 1) instanceChain
  | deriveDecl : ModulePart (.tokens 1) deriveDecl
  | valueDecl : ModulePart (.tokens 1) (do
      if (← kindAt 1) = .doubleColon then signature else valueDecl)

set_option synthInstance.maxSize 16384 in
theorem ModulePart.completing {course : Course} {outlook : Outlook} {α : Type} {script : Script α}
    (part : ModulePart outlook script) : Completing course 5 outlook script := by
  cases part <;> infer_instance

/-- Where the outlook is right, the script upholds the invariant. -/
def Upholds (scene : Scene) (invariant : State → Prop) (outlook : Outlook) {α : Type}
    (script : Script α) : Prop :=
  ∀ state, invariant state → outlook.Holds scene state →
    invariant (script.execute scene.setting state).2

variable {scene : Scene} {invariant : State → Prop} {outlook : Outlook} {α β : Type}

theorem execute_bind (script : Script α) (next : α → Script β) (state : State) :
    (script >>= next).execute scene.setting state =
      (next (script.execute scene.setting state).1).execute scene.setting
        (script.execute scene.setting state).2 :=
  rfl

theorem consumes_execute (script : Script α) (state : State) :
    Consumes state (script.execute scene.setting state).2 :=
  (Consumes.steps scene.setting).run ((Consumes.steps scene.setting).runRule _) script state

namespace Upholds

theorem bind {script : Script α} {next : α → Script β}
    (first : Upholds scene invariant outlook script)
    (later : ∀ value, Upholds scene invariant (.tokens 0) (next value)) :
    Upholds scene invariant outlook (script >>= next) :=
  fun state holds known => later _ _ (first state holds known) (Outlook.holds_none _)

theorem ite {condition : Prop} [Decidable condition] {yes no : Script α}
    (first : Upholds scene invariant outlook yes) (second : Upholds scene invariant outlook no) :
    Upholds scene invariant outlook (if condition then yes else no) := by
  split
  · exact first
  · exact second

theorem loop {σ : Type} {start : σ} {round : σ → Script (ForInStep σ)}
    (step : ∀ value, Upholds scene invariant (.tokens 0) (round value)) :
    Upholds scene invariant outlook (Script.loop start round) :=
  fun _ holds _ => loop_keeps invariant
    (fun value inner kept => step value inner kept (Outlook.holds_none inner)) holds

section Module

variable
  (parts : ∀ {α : Type} {outlook : Outlook} {script : Script α}, ModulePart outlook script →
    Upholds scene invariant outlook script)
  (declares : ∀ state associativity, invariant state →
    DeclaredFixity.associativity? (kindAhead scene state 0) = some associativity →
      invariant ((fixityDecl associativity).execute scene.setting state).2)
include parts declares

theorem decl : Upholds scene invariant (.tokens 0) decl := by
  intro state holds _
  have known {kind : TokenKind} (seen : kindAhead scene state 0 = kind)
      (proper : isProper kind = true) : (Outlook.tokens 1).Holds scene state :=
    Outlook.holds_one (by rw [seen]; exact proper)
  rw [Grammar.decl, execute_bind,
    show kind.execute scene.setting state = (kindAhead scene state 0, state) from rfl]
  dsimp only
  split
  case h_1 seen => exact parts .importDecl state holds (known seen rfl)
  case h_2 seen => exact parts .foreignDecl state holds (known seen rfl)
  case h_3 seen => exact parts .dataDecl state holds (known seen rfl)
  case h_4 seen => exact parts .typeDecl state holds (known seen rfl)
  case h_5 seen => exact parts .newtypeDecl state holds (known seen rfl)
  case h_6 seen => exact parts .classDecl state holds (known seen rfl)
  case h_7 seen => exact parts .instanceChain state holds (known seen rfl)
  case h_8 seen => exact parts .deriveDecl state holds (known seen rfl)
  case h_9 seen => exact declares state .none holds (by rw [seen]; rfl)
  case h_10 seen => exact declares state .left holds (by rw [seen]; rfl)
  case h_11 seen => exact declares state .right holds (by rw [seen]; rfl)
  case h_12 seen => exact parts .valueDecl state holds (known seen rfl)
  case h_13 => exact parts (.recover declStarts) state holds (Outlook.holds_none state)

theorem topLevelItem : Upholds scene invariant (.tokens 0) topLevelItem := by
  have item : Upholds scene invariant (.tokens 0) (progress Grammar.decl) :=
    (parts .position).bind fun _ => (decl parts declares).bind fun _ =>
      (parts .position).bind fun _ => .ite (parts .misfit) (parts (.result ()))
  have rest : Upholds scene invariant (.tokens 0) (do
      unless (← seesAny itemEnds) do
        recover [.layoutSep] []) :=
    (parts (.seesAny itemEnds)).bind fun _ =>
      .ite (parts (.result ())) (parts (.recover [.layoutSep]))
  exact (parts .forgetBrackets).bind fun _ => item.bind fun _ => rest

theorem topLevel : Upholds scene invariant (.tokens 0) topLevel := by
  have done (step : ForInStep Bool) : Upholds scene invariant (.tokens 0) (pure step) :=
    parts (.result step)
  exact .loop fun _ => (parts .poll).bind fun _ => .ite (done _)
    ((parts .separators).bind fun _ => (parts (.seesAny [.layoutEnd, .eof])).bind fun _ =>
      .ite (done _) ((topLevelItem parts declares).bind fun _ => done _))

theorem moduleItems : Upholds scene invariant (.tokens 0) moduleItems := by
  have top := topLevel parts declares
  exact (parts (.sees _)).bind fun _ =>
    .ite ((parts .moduleHeader).bind fun _ => (parts (.eat .layoutStart)).bind fun _ =>
      .ite (top.bind fun cancelled => (parts (.expect .layoutEnd)).bind fun _ =>
        parts (.result cancelled)) top) top

theorem wholeModule : Upholds scene invariant (.tokens 0) wholeModule :=
  (moduleItems parts declares).bind fun cancelled => .ite (parts (.result cancelled))
    ((parts .leftover).bind fun _ => (parts .bump).bind fun _ => parts (.result cancelled))

end Module

end Upholds

end Offside.Grammar
