import Mathlib.Logic.Function.Iterate
import Offside.Proofs.BlockMarks
import Offside.Proofs.Lookahead
import Offside.Proofs.Skipping

/-!
# What productions do

All that a production does to a run is made of a few steps.  It takes a token
that it has looked at, it reports that something is missing, it skips what
fits nowhere into a node that reports the first token skipped, it blames an
operator, it closes nodes around what it has read, and it goes one level
deeper and comes back.  It takes no token as part of a construct that the
language does not have, and it never asks whether to give up.

The marks of a block are taken only around the items of a block and between
them.  Below the root and between the instances of a chain there are marks
that belong to no block of a construct.

Five kinds of nodes enclose whole productions.  A node of one of them is
opened inside another only one level deeper, so the depth of productions
bounds how deep they are nested.

Which steps a script takes follows from how it is put together.  So it is a
class, and instances follow the way the script is put together.
-/

namespace Offside.Grammar

/-- Kinds of tokens that constructs of the language are made of, but for the marks of blocks. -/
@[reducible]
def isProper : TokenKind → Bool
  | .error _ | .eof | .layoutStart | .layoutSep | .layoutEnd => false
  | _ => true

/-- Kinds of nodes that stand for a construct of the language. -/
@[reducible]
def isConstruct : NodeKind → Bool
  | .error | .instanceChain => false
  | _ => true

/-- Kinds of constructs that do not enclose whole productions. -/
@[reducible]
def isLoose : NodeKind → Bool
  | .exprParens | .exprCase | .exprDo | .typeParens | .binderParens | .error
  | .instanceChain => false
  | _ => true

/-! ### What steps leave alone -/

theorem takeTrivia_eq (setting : Setting) (state : State) :
    ∃ ahead trail reached, state.takeTrivia setting = { state with ahead, trail, reached } := by
  rw [State.takeTrivia]
  split
  · exact ⟨state.ahead, state.trail, state.reached, rfl⟩
  · next lexeme rest _ =>
      obtain ⟨trail, reached, same⟩ : ∃ trail reached,
          lexeme.trivia.foldl (State.takeTrivium setting) state =
            { state with trail, reached } := foldl_takeTrivium_eq setting lexeme.trivia
      exact ⟨_, trail, reached, by rw [same]⟩

theorem bump_eq (setting : Setting) (state : State) :
    ∃ ahead trail reached position openBrackets, state.bump setting =
      { state with ahead, trail, reached, position, openBrackets } := by
  obtain ⟨ahead, trail, reached, taken⟩ := takeTrivia_eq setting state
  rw [State.bump, taken]
  split
  · exact ⟨_, _, _, _, _, rfl⟩
  · exact ⟨_, _, _, _, _, rfl⟩

theorem iterate_bump_eq (setting : Setting) (count : Nat) (state : State) :
    ∃ ahead trail reached position openBrackets, (State.bump setting)^[count] state =
      { state with ahead, trail, reached, position, openBrackets } := by
  induction count with
  | zero => exact ⟨_, _, _, _, _, rfl⟩
  | succ count ih =>
    obtain ⟨_, _, _, _, _, earlier⟩ := ih
    obtain ⟨_, _, _, _, _, bumped⟩ := bump_eq setting _
    rw [Function.iterate_succ_apply', bumped, earlier]
    exact ⟨_, _, _, _, _, rfl⟩

theorem report_eq (setting : Setting) (state : State) (cause : Cause) (expected : List TokenKind) :
    ∃ trail lastReport, state.report setting cause expected =
      { state with trail, lastReport } := by
  rw [State.report]
  split
  · exact ⟨_, _, rfl⟩
  · exact ⟨_, _, rfl⟩

theorem declare_eq (setting : Setting) (state : State) (space : Namespace) (operator : String)
    (fixity : Fixity) :
    ∃ operators declared, (state.declare setting space operator fixity).2 =
      { state with operators, declared } := by
  rw [State.declare]
  split
  · exact ⟨_, _, rfl⟩
  · exact ⟨_, _, rfl⟩

theorem tokenAt_takeTrivia (setting : Setting) (state : State) (index : Nat) :
    (state.takeTrivia setting).tokenAt setting index = state.tokenAt setting index := by
  cases found : state.ahead with
  | nil => rw [State.takeTrivia, found]
  | cons lexeme rest =>
    rw [takeTrivia_of_cons setting found, State.tokenAt, State.tokenAt, found]
    cases index <;> rfl

theorem tokenAt_bump (setting : Setting) (state : State) (index : Nat) :
    (state.bump setting).tokenAt setting index = state.tokenAt setting (index + 1) := by
  cases found : state.ahead with
  | nil =>
    rw [bump_of_ahead_nil setting found, State.tokenAt, State.tokenAt, found]
    rfl
  | cons lexeme rest =>
    rw [bump_of_cons setting found, State.tokenAt, State.tokenAt, found]
    rfl

/-- The tokens taken in between are those that were ahead, in order and each once. -/
def Consumes (before after : State) : Prop :=
  ∃ taken, before.ahead.map Lexeme.token = taken ++ after.ahead.map Lexeme.token ∧
    after.position = before.position + taken.length

namespace Consumes

variable {first second third : State}

theorem of_ahead (ahead : second.ahead.map Lexeme.token = first.ahead.map Lexeme.token)
    (position : second.position = first.position) : Consumes first second :=
  ⟨[], ahead.symm, position⟩

theorem refl (state : State) : Consumes state state :=
  of_ahead rfl rfl

theorem trans (left : Consumes first second) (right : Consumes second third) :
    Consumes first third := by
  obtain ⟨taken, split, further⟩ := left
  obtain ⟨more, splitOn, furtherOn⟩ := right
  refine ⟨taken ++ more, ?_, ?_⟩
  · rw [split, splitOn, List.append_assoc]
  · rw [furtherOn, further, List.length_append, Nat.add_assoc]

theorem takeTrivia (setting : Setting) (state : State) :
    Consumes state (state.takeTrivia setting) := by
  cases found : state.ahead with
  | nil =>
    rw [State.takeTrivia, found]
    exact .refl state
  | cons lexeme rest =>
    refine of_ahead ?_ ?_
    · rw [takeTrivia_of_cons setting found, found]
      rfl
    · obtain ⟨ahead, trail, reached, taken⟩ := takeTrivia_eq setting state
      rw [taken]

theorem bump (setting : Setting) (state : State) : Consumes state (state.bump setting) := by
  cases found : state.ahead with
  | nil =>
    rw [bump_of_ahead_nil setting found]
    exact .refl state
  | cons lexeme rest =>
    refine ⟨[lexeme.token], ?_, ?_⟩
    · rw [bump_of_cons setting found, found]
      rfl
    · obtain ⟨ahead, trail, reached, taken⟩ := takeTrivia_eq setting state
      rw [bump_of_cons setting found, taken]
      rfl

theorem iterate_bump (setting : Setting) (count : Nat) (state : State) :
    Consumes state ((State.bump setting)^[count] state) := by
  induction count generalizing state with
  | zero => exact .refl state
  | succ count ih => exact (Consumes.bump setting state).trans (ih _)

theorem mark (mark : Mark) (state : State) : Consumes state (state.mark mark) :=
  of_ahead rfl rfl

theorem least (consumes : Consumes first second) : first.position ≤ second.position := by
  obtain ⟨taken, -, further⟩ := consumes
  exact further ▸ Nat.le_add_right _ _

theorem total (consumes : Consumes first second) :
    second.position + second.ahead.length = first.position + first.ahead.length := by
  obtain ⟨taken, split, further⟩ := consumes
  have length := congrArg List.length split
  rw [List.length_append, List.length_map, List.length_map] at length
  omega

theorem kindAhead {scene : Scene} (consumes : Consumes first second)
    (unmoved : second.position = first.position) (index : Nat) :
    kindAhead scene second index = kindAhead scene first index := by
  obtain ⟨taken, split, further⟩ := consumes
  have nothing : taken = [] := List.eq_nil_of_length_eq_zero (by omega)
  rw [nothing, List.nil_append] at split
  have place : (second.ahead[index]?).map Lexeme.token =
      (first.ahead[index]?).map Lexeme.token := by
    rw [← List.getElem?_map, ← List.getElem?_map, split]
  rw [Grammar.kindAhead, Grammar.kindAhead, State.tokenAt, State.tokenAt]
  cases one : first.ahead[index]? <;> cases two : second.ahead[index]? <;>
    simp_all

theorem fewer (consumes : Consumes first second) : second.ahead.length ≤ first.ahead.length := by
  have total := consumes.total
  have least := consumes.least
  omega

theorem shorter (consumes : Consumes first second)
    (further : first.position < second.position) : second.ahead.length < first.ahead.length := by
  have total := consumes.total
  omega

end Consumes

/-! ### Steps of productions -/

/-- Where productions are at work. -/
inductive Phase where
  /-- In the spelling of an operator. -/
  | spelling
  /-- In a construct, where nodes that enclose whole productions may be opened or not. -/
  | item (encloses : Bool)
  /-- Between the marks of a block. -/
  | block (encloses : Bool)
  /-- Between the instances of a chain. -/
  | links
  /-- Right below the root. -/
  | top

instance : Coe Bool Phase :=
  ⟨.item⟩

namespace Phase

@[reducible]
def encloses : Phase → Bool
  | item encloses | block encloses => encloses
  | _ => false

@[reducible]
def opens : Phase → Bool
  | spelling => false
  | _ => true

@[reducible]
def skips : Phase → Bool
  | item _ | top => true
  | _ => false

def allows : Phase → TokenKind → Bool
  | block _, kind => isProper kind || kind = .layoutSep
  | top, kind => isProper kind || kind.isBlockMark
  | _, kind => isProper kind

theorem allows_of_isProper (phase : Phase) {kind : TokenKind} (proper : isProper kind = true) :
    phase.allows kind = true := by
  cases phase <;> simp [allows, proper]

theorem ne_eof_of_allows {phase : Phase} {kind : TokenKind} (allowed : phase.allows kind = true) :
    kind ≠ .eof := by
  rintro rfl
  cases phase <;> cases allowed

end Phase

/-- The tokens next to an `else` that joins two instances: separators on either side. -/
def joints : List (List TokenKind) :=
  [[.layoutSep, .keyword .elseWord], [.keyword .elseWord, .layoutSep],
    [.layoutSep, .keyword .elseWord, .layoutSep]]

/-- The cause tells what is wrong with a token of the kind, or it is about a fixity. -/
def Fits (cause : Cause) (kind : TokenKind) : Prop :=
  cause = Cause.ofMisfit kind ∨ ∃ problem, cause = .fixity problem

/-- The state after so many tokens have been skipped into a node that reports the cause. -/
def skipOver (setting : Setting) (state : State) (cause : Cause) (expected : List TokenKind)
    (count : Nat) : State :=
  let after := (State.bump setting)^[count] ((state.takeTrivia setting).mark .start)
  after.mark (.finish .error
    (some (after.resume setting (state.diagnose setting cause expected))))

theorem skipOver_eq (setting : Setting) (state : State) (cause : Cause)
    (expected : List TokenKind) (count : Nat) :
    ∃ ahead trail reached position openBrackets, skipOver setting state cause expected count =
      { state with ahead, trail, reached, position, openBrackets } := by
  obtain ⟨_, _, _, taken⟩ := takeTrivia_eq setting state
  obtain ⟨_, _, _, _, _, skipped⟩ :=
    iterate_bump_eq setting count _
  rw [skipOver, skipped, taken]
  exact ⟨_, _, _, _, _, rfl⟩

variable (setting : Setting) (asks : Bool) in
/-- What productions do; `asks` says whether the question may be asked whether to give up. -/
inductive Proceeds : Phase → State → State → Prop where
  | stay (phase : Phase) (state : State) : Proceeds phase state state
  | trans {phase : Phase} {first second third : State} (left : Proceeds phase first second)
      (right : Proceeds phase second third) :
      Proceeds phase first third
  | bump {phase : Phase} {state : State}
      (allowed : phase.allows (state.current setting).kind = true) :
      Proceeds phase state (state.bump setting)
  | report (phase : Phase) (state : State) (expected : List TokenKind) :
      Proceeds phase state (state.report setting .syntactic expected)
  | steer (phase : Phase) (state : State) (operators declared : OperatorTable)
      (openBrackets : Nat) :
      Proceeds phase state { state with operators, declared, openBrackets }
  | skip {phase : Phase} {state : State} {cause : Cause} (expected : List TokenKind)
      {count : Nat} (skips : phase.skips = true) (fits : Fits cause (state.current setting).kind)
      (onward : ∀ index ≤ count, (state.tokenAt setting index).kind ≠ .eof)
      (confined : Confined ((state.ahead.take (count + 1)).map Lexeme.token)) :
      Proceeds phase state (skipOver setting state cause expected (count + 1))
  | node {phase : Phase} {state after : State} {kind : NodeKind} (opens : phase.opens = true)
      (loose : isLoose kind = true)
      (body : Proceeds phase.encloses ((state.takeTrivia setting).mark .start)
        after) :
      Proceeds phase state (after.mark (.finish kind none))
  | blame (encloses : Bool) {state after : State} (problem : FixityFault) (found : Found)
      (body : Proceeds .spelling ((state.takeTrivia setting).mark .start) after) :
      Proceeds encloses state
        ((after.mark (.finish .operator none)).blame setting (.fixity problem) found)
  | enclose {state after : State} {kind : NodeKind} (construct : isConstruct kind = true)
      (body : Proceeds false ((state.takeTrivia setting).mark .start) after) :
      Proceeds true state (after.mark (.finish kind none))
  | abandon {encloses : Bool} {state after : State}
      (body : Proceeds encloses ((state.takeTrivia setting).mark .start) after) :
      Proceeds encloses state (after.mark .abandon)
  | wrap {encloses : Bool} {state after : State} {kind : NodeKind} (finished : Finished state)
      (loose : isLoose kind = true) (body : Proceeds encloses (state.mark (.precede 0)) after) :
      Proceeds encloses state (after.mark (.finish kind none))
  | nest (encloses : Bool) {state after : State} (above : state.depth < maxDepth)
      (body : Proceeds true { state with depth := state.depth + 1 } after) :
      Proceeds encloses state { after with depth := after.depth - 1 }
  | block {encloses : Bool} {state after : State}
      (opens : (state.current setting).kind = .layoutStart)
      (body : Proceeds (.block encloses) (state.bump setting) after)
      (closes : (after.current setting).kind = .layoutEnd) :
      Proceeds encloses state (after.bump setting)
  /-- A block that is not closed before the text ends, or before the rounds are used up. -/
  | unclosed {encloses : Bool} {state after : State}
      (opens : (state.current setting).kind = .layoutStart)
      (body : Proceeds (.block encloses) (state.bump setting) after)
      (ends : (after.current setting).kind = .eof ∨ setting.rounds ≤ state.ahead.length) :
      Proceeds encloses state after
  | within {encloses : Bool} {before after : State}
      (body : Proceeds (.item encloses) before after) :
      Proceeds (.block encloses) before after
  | join {state : State} {kinds : List TokenKind} (joint : kinds ∈ joints)
      (seen : (state.ahead.take kinds.length).map (fun lexeme => lexeme.token.kind) = kinds) :
      Proceeds .links state ((State.bump setting)^[kinds.length] state)
  | chain {state after : State}
      (body : Proceeds .links ((state.takeTrivia setting).mark .start) after) :
      Proceeds .top state (after.mark (.finish .instanceChain none))
  | ask (state : State) (asked : asks = true) :
      Proceeds .top state { state with polls := state.polls + 1 }

namespace Proceeds

variable {setting : Setting} {asks encloses : Bool} {phase : Phase} {before after : State}

theorem mono (proceeds : Proceeds setting asks false before after) :
    Proceeds setting asks encloses before after := by
  have both : (∀ {phase before after}, Proceeds setting asks phase before after →
      (phase = .item false → Proceeds setting asks (.item encloses) before after) ∧
      (phase = .block false → Proceeds setting asks (.block encloses) before after)) := by
    intro phase before after proceeds
    induction proceeds with
    | stay _ state => exact ⟨fun _ => .stay _ state, fun _ => .stay _ state⟩
    | trans _ _ ihLeft ihRight =>
      exact ⟨fun same => (ihLeft.1 same).trans (ihRight.1 same),
        fun same => (ihLeft.2 same).trans (ihRight.2 same)⟩
    | bump allowed =>
      exact ⟨by rintro rfl; exact .bump allowed, by rintro rfl; exact .bump allowed⟩
    | report _ state expected =>
      exact ⟨fun _ => .report _ state expected, fun _ => .report _ state expected⟩
    | steer _ state operators declared openBrackets =>
      exact ⟨fun _ => .steer _ state operators declared openBrackets,
        fun _ => .steer _ state operators declared openBrackets⟩
    | skip expected skips fits onward confined =>
      exact ⟨by rintro rfl; exact .skip expected rfl fits onward confined,
        by rintro rfl; cases skips⟩
    | node _ loose _ ih =>
      exact ⟨by rintro rfl; exact .node rfl loose (ih.1 rfl),
        by rintro rfl; exact .node rfl loose (ih.1 rfl)⟩
    | blame _ problem found body =>
      exact ⟨fun _ => .blame encloses problem found body, by rintro ⟨⟩⟩
    | enclose => exact ⟨by rintro ⟨⟩, by rintro ⟨⟩⟩
    | abandon _ ih => exact ⟨fun same => .abandon (ih.1 same), by rintro ⟨⟩⟩
    | wrap finished loose _ ih =>
      exact ⟨fun same => .wrap finished loose (ih.1 same), by rintro ⟨⟩⟩
    | nest _ above body => exact ⟨fun _ => .nest encloses above body, by rintro ⟨⟩⟩
    | block opens _ closes ih =>
      exact ⟨by rintro ⟨⟩; exact .block opens (ih.2 rfl) closes, by rintro ⟨⟩⟩
    | unclosed opens _ ends ih =>
      exact ⟨by rintro ⟨⟩; exact .unclosed opens (ih.2 rfl) ends, by rintro ⟨⟩⟩
    | within _ ih => exact ⟨by rintro ⟨⟩, by rintro ⟨⟩; exact .within (ih.1 rfl)⟩
    | join | chain | ask => exact ⟨by rintro ⟨⟩, by rintro ⟨⟩⟩
  exact (both proceeds).1 rfl

theorem consumes (proceeds : Proceeds setting asks phase before after) : Consumes before after := by
  have enters (state : State) : Consumes state ((state.takeTrivia setting).mark .start) :=
    (Consumes.takeTrivia setting state).trans (.mark .start _)
  induction proceeds with
  | stay | steer | ask => exact .of_ahead rfl rfl
  | trans _ _ left right => exact left.trans right
  | bump => exact .bump setting _
  | report _ state expected =>
    obtain ⟨trail, lastReport, reported⟩ := report_eq setting state .syntactic expected
    rw [reported]
    exact .of_ahead rfl rfl
  | @skip _ state _ _ count =>
    exact ((enters state).trans (.iterate_bump setting (count + 1) _)).trans (.mark _ _)
  | @node _ state _ _ _ _ _ ih | @blame _ state _ _ _ _ ih | @enclose state _ _ _ _ ih
  | @abandon _ state _ _ ih | @chain state _ _ ih =>
    exact ((enters state).trans ih).trans (.of_ahead rfl rfl)
  | @wrap _ state _ _ _ _ _ ih =>
    exact ((Consumes.mark _ state).trans ih).trans (.mark _ _)
  | @nest _ state _ _ _ ih =>
    have deeper : Consumes state { state with depth := state.depth + 1 } := .of_ahead rfl rfl
    exact (deeper.trans ih).trans (.of_ahead rfl rfl)
  | @block _ state after _ _ _ ih =>
    exact ((Consumes.bump setting state).trans ih).trans (.bump setting after)
  | @unclosed _ state _ _ _ _ ih => exact (Consumes.bump setting state).trans ih
  | within _ ih => exact ih
  | join => exact .iterate_bump setting _ _

end Proceeds

/-! ### Scripts -/

/-- What is known about the tokens ahead. -/
inductive Outlook where
  /-- The first tokens are tokens that the language has. -/
  | tokens (count : Nat)
  /-- The first token is not a token that the language has. -/
  | fault (problem : LexFault)
  /-- The text is not over. -/
  | onward

def Outlook.Holds (scene : Scene) : Outlook → State → Prop
  | .tokens count, state =>
    ∀ index < count, isProper (kindAhead scene state index) = true
  | .fault problem, state => kindAhead scene state 0 = .error problem
  | .onward, state => kindAhead scene state 0 ≠ .eof

/-- Nodes that enclose whole productions may be opened where the rule is called. -/
def Rule.encloses : Rule → Bool
  | .operand | .chain .expr _ _ => true
  | _ => false

def Rule.outlook : Rule → Outlook
  | .update => .tokens 1
  | _ => .tokens 0

/--
How the rules are run, none of which does more than productions do.  Where one
answers that it has left a node, its last step was to finish one.
-/
structure Conduct where
  scene : Scene
  asks : Bool
  turns : 0 < scene.setting.rounds
  run : Rule → State → Bool × State
  proceeds : ∀ (rule : Rule) (state : State), rule.outlook.Holds scene state →
    Proceeds scene.setting asks rule.encloses state (run rule state).2
  closes : ∀ (rule : Rule) (state : State), (run rule state).1 = true →
    Finished (run rule state).2

/--
What is demanded of a script where it is run.  A script that does it may look
at what is ahead before.
-/
structure Demand (α : Type) where
  scene : Scene
  run : Rule → State → Bool × State
  ready : State → Prop
  met : Script α → State → Prop
  look : ∀ {β : Type} {script : Script β} {next : β → Script α} {state : State}, Looking script →
    met (next (script.run scene.setting run state).1) state → met (script >>= next) state

/-- Where the outlook is right, the script does what is demanded. -/
class Meets {α : Type} (demand : Demand α) (outlook : Outlook) (script : Script α) : Prop where
  meets : ∀ state, demand.ready state → outlook.Holds demand.scene state → demand.met script state

def Conduct.keeps (conduct : Conduct) (phase : Phase) (ready : State → Prop) {α : Type} :
    Demand α where
  scene := conduct.scene
  run := conduct.run
  ready := ready
  met script state := Proceeds conduct.scene.setting conduct.asks phase state
    (script.run conduct.scene.setting conduct.run state).2
  look _ met := by
    rw [run_look]
    exact met

def Anywhere (_ : State) : Prop :=
  True

def Behind (behind : Bool) (state : State) : Prop :=
  behind = true → Finished state

/-- No more is to be done than productions do, and then the level entered last is to be left. -/
def Conduct.rises (conduct : Conduct) (phase : Phase) {α : Type} : Demand α where
  scene := conduct.scene
  run := conduct.run
  ready := Anywhere
  met script state := ∃ inner : State,
    Proceeds conduct.scene.setting conduct.asks phase state inner ∧
      (script.run conduct.scene.setting conduct.run state).2 =
        { inner with depth := inner.depth - 1 }
  look _ met := by
    rw [run_look]
    exact met

/-- Where the outlook is right, the script does no more than productions do. -/
abbrev Disciplined (conduct : Conduct) (phase : Phase) (outlook : Outlook) {α : Type}
    (script : Script α) : Prop :=
  Meets (conduct.keeps phase Anywhere) outlook script

/--
Where the outlook is right, the script does no more than productions do one level
deeper, and leaves the level.
-/
abbrev Rising (conduct : Conduct) (phase : Phase) (outlook : Outlook) {α : Type}
    (script : Script α) : Prop :=
  Meets (conduct.rises phase) outlook script

/-- Behind a finished node, if the flag says so, the script does no more than productions do. -/
abbrev Joining (conduct : Conduct) (phase : Phase) (behind : Bool) (outlook : Outlook)
    {α : Type} (script : Script α) : Prop :=
  Meets (conduct.keeps phase (Behind behind)) outlook script

/-- The script ends with a finished node, if the flag says that it starts behind one. -/
class Leaving (conduct : Conduct) (behind : Bool) {α : Type} (script : Script α) : Prop where
  leaves : ∀ state, Behind behind state →
    Finished (script.run conduct.scene.setting conduct.run state).2

/-- Where the script answers yes it ends with a finished node. -/
class Closing (conduct : Conduct) (behind : Bool) (script : Script Bool) : Prop where
  closes : ∀ state, Behind behind state →
    (script.run conduct.scene.setting conduct.run state).1 = true →
      Finished (script.run conduct.scene.setting conduct.run state).2

/-- Where the outlook is right and the test holds, more is known. -/
class Telling (test : Script Bool) (outlook : Outlook) (further : outParam Outlook) :
    Prop where
  tells : ∀ (scene : Scene) (rules : Rule → State → Bool × State) (state : State),
    outlook.Holds scene state → (test.run scene.setting rules state).1 = true →
      further.Holds scene state

/-- Where the test fails, the text is not over. -/
class Denying (test : Script Bool) : Prop where
  denies : ∀ (scene : Scene) (rules : Rule → State → Bool × State) (state : State),
    (test.run scene.setting rules state).1 = false → Outlook.onward.Holds scene state

/-- What is known says that the text is not over. -/
class Lasting (outlook : Outlook) : Prop where
  onward : ∀ {scene : Scene} {state : State},
    outlook.Holds scene state → kindAhead scene state 0 ≠ .eof

/-- Every answer of the script is accepted. -/
class Answers {α : Type} (accepts : α → Bool) (script : Script α) : Prop where
  accepted : ∀ setting rules state, accepts (script.run setting rules state).1 = true

/-- Kinds of tokens all of which the language has. -/
class AllProper (kinds : List TokenKind) : Prop where
  proper : ∀ kind ∈ kinds, isProper kind = true

variable {α β σ : Type} {condition : Prop} {scene : Scene} {state : State} {wanted : TokenKind}
  {script yes no : Script α} {next : α → Script β} {test : Script Bool}
  {rules : Rule → State → Bool × State} {start : σ} {round : σ → Script (ForInStep σ)}
  {body item : Script Unit}

instance [Decidable condition] {yes no : TokenKind} [first : Decided (isProper yes)]
    [second : Decided (isProper no)] : Decided (isProper (if condition then yes else no)) := by
  split
  · exact first
  · exact second

instance : AllProper [] :=
  ⟨nofun⟩

instance {kind : TokenKind} {kinds : List TokenKind} [first : Decided (isProper kind)]
    [later : AllProper kinds] : AllProper (kind :: kinds) :=
  ⟨List.forall_mem_cons.mpr ⟨first.holds, later.proper⟩⟩

/-- A test that only kinds of tokens pass that the language has. -/
class Screens (test : TokenKind → Bool) : Prop where
  proper : ∀ kind, test kind = true → isProper kind = true

variable {conduct : Conduct} {phase : Phase} {encloses behind : Bool}
  {outlook further : Outlook} {count : Nat}

/-! ### What is known -/

theorem Outlook.holds_none (state : State) : (Outlook.tokens 0).Holds scene state :=
  nofun

theorem Outlook.holds_one (proper : isProper (kindAhead scene state 0) = true) :
    (Outlook.tokens 1).Holds scene state := by
  intro index early
  rw [Nat.lt_one_iff.mp early]
  exact proper

theorem Outlook.Holds.succ (holds : (Outlook.tokens count).Holds scene state)
    (proper : isProper (kindAhead scene state count) = true) :
    (Outlook.tokens (count + 1)).Holds scene state := by
  intro index early
  rcases Nat.lt_succ_iff_lt_or_eq.mp early with earlier | rfl
  · exact holds index earlier
  · exact proper

theorem Outlook.holds_two (first : isProper (kindAhead scene state 0) = true)
    (second : isProper (kindAhead scene state 1) = true) : (Outlook.tokens 2).Holds scene state :=
  (Outlook.holds_one first).succ second

theorem Outlook.Holds.of_kindAhead {one two : State} (holds : outlook.Holds scene one)
    (same : ∀ index, kindAhead scene two index = kindAhead scene one index) :
    outlook.Holds scene two := by
  cases outlook with
  | tokens count => exact fun index early => by rw [same]; exact holds index early
  | fault problem => exact (same 0).trans holds
  | onward => exact fun atEnd => holds ((same 0).symm.trans atEnd)

theorem kindAhead_takeTrivia (state : State) (index : Nat) :
    kindAhead scene (state.takeTrivia scene.setting) index = kindAhead scene state index := by
  rw [kindAhead, tokenAt_takeTrivia, kindAhead]

theorem Outlook.Holds.bump (holds : (Outlook.tokens (count + 1)).Holds scene state) :
    (Outlook.tokens count).Holds scene (state.bump scene.setting) := by
  intro index early
  rw [kindAhead, tokenAt_bump]
  exact holds (index + 1) (Nat.succ_lt_succ early)

theorem ne_eof_of_isProper {kind : TokenKind} (proper : isProper kind = true) : kind ≠ .eof := by
  rintro rfl
  cases proper

instance : Lasting (.tokens (count + 1)) :=
  ⟨fun holds => ne_eof_of_isProper (holds 0 (Nat.succ_pos count))⟩

instance (problem : LexFault) : Lasting (.fault problem) :=
  ⟨fun holds atEnd => nomatch holds.symm.trans atEnd⟩

instance : Lasting .onward :=
  ⟨id⟩

/-! ### Looking ahead -/

instance [proper : Decided (isProper wanted)] : Telling (sees wanted) outlook (.tokens 1) where
  tells scene _ state _ seen := by
    have isWanted : kindAhead scene state 0 = wanted := of_decide_eq_true seen
    refine Outlook.holds_one ?_
    rw [isWanted]
    exact proper.holds

instance {wanted : List TokenKind} [all : AllProper wanted] :
    Telling (seesAny wanted) outlook (.tokens 1) where
  tells _ _ _ _ seen := Outlook.holds_one (all.proper _ (List.contains_iff_mem.mp seen))

instance (word : String) : Telling (seesWord word) outlook (.tokens 1) where
  tells _ _ _ _ seen := by
    refine Outlook.holds_one ?_
    rw [kindAhead_of_seesWord seen]

instance (spelling : String) : Telling (seesOperator spelling) outlook (.tokens 1) where
  tells _ _ _ _ seen := by
    refine Outlook.holds_one ?_
    rw [kindAhead_of_seesOperator seen]

instance (stops : List TokenKind) : Denying (seesEnd stops) where
  denies scene rules state goesOn atEnd := by
    have asked : (kind.run scene.setting rules state).1 = .eof := atEnd
    rw [run_look, asked] at goesOn
    cases goesOn

instance (skipped : Skipped) (stops : List TokenKind) : Denying (seesStop skipped stops) where
  denies scene rules state goesOn atEnd := by
    have asked : (kind.run scene.setting rules state).1 = .eof := atEnd
    rw [run_look, asked] at goesOn
    cases goesOn

instance : Denying (seesAny [.layoutEnd, .eof]) where
  denies scene rules state goesOn atEnd := by
    have seen : [TokenKind.layoutEnd, .eof].contains (kindAhead scene state 0) = false := goesOn
    rw [atEnd] at seen
    cases seen

/-! ### Sequences and choices -/

section Demands

variable {demand : Demand β}

instance (priority := 1100) [looking : Looking script]
    [later : ∀ value, Meets demand outlook (next value)] : Meets demand outlook (script >>= next) :=
  ⟨fun state ready holds => demand.look looking ((later _).meets state ready holds)⟩

variable {demand : Demand α}

instance [Decidable condition] [first : Meets demand outlook yes]
    [second : Meets demand outlook no] :
    Meets demand outlook (if condition then yes else no) := by
  split
  · exact first
  · exact second

instance (priority := high) [looking : Looking test] [telling : Telling test outlook further]
    [first : Meets demand further yes] [second : Meets demand outlook no] :
    Meets demand outlook (test >>= fun answer => if answer = true then yes else no) where
  meets state ready holds := by
    refine demand.look looking ?_
    split
    · next seen => exact first.meets state ready (telling.tells _ _ _ holds seen)
    · exact second.meets state ready holds

instance (priority := high) {flag : Bool} [looking : Looking test]
    [telling : Telling test outlook further] [first : Meets demand further yes]
    [second : Meets demand outlook no] :
    Meets demand outlook (test >>= fun answer => if (answer && flag) = true then yes else no) where
  meets state ready holds := by
    refine demand.look looking ?_
    split
    · next both =>
        exact first.meets state ready (telling.tells _ _ _ holds (Bool.and_eq_true_iff.mp both).1)
    · exact second.meets state ready holds

instance (priority := 1200) [looking : Looking test] [denying : Denying test]
    [first : Meets demand outlook yes] [second : Meets demand .onward no] :
    Meets demand outlook (test >>= fun answer => if answer = true then yes else no) where
  meets state ready holds := by
    refine demand.look looking ?_
    split
    · exact first.meets state ready holds
    · next failed =>
        exact second.meets state ready (denying.denies _ _ _ (Bool.not_eq_true _ ▸ failed))

instance (priority := high) {following : TokenKind} {yes no : TokenKind → Script α}
    [proper : Decided (isProper wanted)] [alsoProper : Decided (isProper following)]
    [first : ∀ kind, Meets demand (.tokens 2) (yes kind)]
    [second : ∀ kind, Meets demand outlook (no kind)] :
    Meets demand outlook
      (kindAt 1 >>= fun next => sees wanted >>= fun answer =>
        if (answer && decide (next = following)) = true then yes next else no next) where
  meets state ready holds := by
    refine demand.look inferInstance (demand.look inferInstance ?_)
    split
    · next both =>
        obtain ⟨isWanted, isNext⟩ := Bool.and_eq_true_iff.mp both
        have here : kindAhead demand.scene state 0 = wanted := of_decide_eq_true isWanted
        have behind : kindAhead demand.scene state 1 = following := of_decide_eq_true isNext
        refine (first _).meets state ready (Outlook.holds_two ?_ ?_)
        · rw [here]
          exact proper.holds
        · rw [behind]
          exact alsoProper.holds
    · exact (second _).meets state ready holds

instance (priority := high) {test : TokenKind → Bool} {yes no : TokenKind → Script α}
    [screens : Screens test] [first : ∀ kind, Meets demand (.tokens 1) (yes kind)]
    [second : ∀ kind, Meets demand outlook (no kind)] :
    Meets demand outlook
      (kind >>= fun kind => if test kind = true then yes kind else no kind) where
  meets state ready holds := by
    refine demand.look inferInstance ?_
    split
    · next passes =>
        exact (first _).meets state ready (Outlook.holds_one (screens.proper _ passes))
    · exact (second _).meets state ready holds

instance (priority := high) [proper : Decided (isProper wanted)] {yes no : TokenKind → Script α}
    [first : ∀ kind, Meets demand (.tokens (count + 1)) (yes kind)]
    [second : ∀ kind, Meets demand (.tokens count) (no kind)] :
    Meets demand (.tokens count)
      (kindAt count >>= fun kind => if kind = wanted then yes kind else no kind) where
  meets state ready holds := by
    refine demand.look inferInstance ?_
    split
    · next isWanted =>
        have next : kindAhead demand.scene state count = wanted := isWanted
        refine (first _).meets state ready (holds.succ ?_)
        rw [next]
        exact proper.holds
    · exact (second _).meets state ready holds

theorem Meets.sight {test : Sight → Prop} [DecidablePred test] {yes no : Sight → Script α}
    (proper : ∀ sight, test sight → isProper sight.kind = true)
    (first : ∀ sight, Meets demand (.tokens 1) (yes sight))
    (second : ∀ sight, Meets demand outlook (no sight)) :
    Meets demand outlook
      (Script.peek 0 >>= fun sight => if test sight then yes sight else no sight) where
  meets state ready holds := by
    refine demand.look inferInstance ?_
    split
    · next passes => exact (first _).meets state ready (Outlook.holds_one (proper _ passes))
    · exact (second _).meets state ready holds

/--
Behind a look at the kind of the token ahead, that is part of a construct, or a
mark of a block, or it is at fault, or the text is over.
-/
theorem Meets.kind {next : TokenKind → Script α}
    (proper : ∀ kind, isProper kind = true → Meets demand (.tokens 1) (next kind))
    (marked : ∀ kind, kind.isBlockMark = true → Meets demand .onward (next kind))
    (faulty : ∀ problem, Meets demand (.fault problem) (next (.error problem)))
    (ended : Meets demand (.tokens 0) (next .eof)) : Meets demand outlook (kind >>= next) where
  meets state ready _ := by
    refine demand.look inferInstance ?_
    change demand.met (next (kindAhead demand.scene state 0)) state
    generalize ahead : kindAhead demand.scene state 0 = kind
    cases isIt : isProper kind with
    | true =>
      refine (proper kind isIt).meets state ready (Outlook.holds_one ?_)
      rw [ahead]
      exact isIt
    | false =>
      have onward (mark : kind.isBlockMark = true) : Outlook.onward.Holds demand.scene state := by
        intro atEnd
        rw [← ahead, atEnd] at mark
        cases mark
      cases kind with
      | error problem => exact (faulty problem).meets state ready ahead
      | eof => exact ended.meets state ready (Outlook.holds_none state)
      | layoutStart | layoutSep | layoutEnd =>
        exact (marked _ rfl).meets state ready (onward rfl)
      | _ => cases isIt

end Demands

theorem Disciplined.intro (proceeds : ∀ state, outlook.Holds conduct.scene state →
      Proceeds conduct.scene.setting conduct.asks phase state
        (script.run conduct.scene.setting conduct.run state).2) :
    Disciplined conduct phase outlook script :=
  ⟨fun state _ => proceeds state⟩

theorem Disciplined.proceeds (disciplined : Disciplined conduct phase outlook script)
    (state : State) (holds : outlook.Holds conduct.scene state) :
    Proceeds conduct.scene.setting conduct.asks phase state
      (script.run conduct.scene.setting conduct.run state).2 :=
  disciplined.meets state trivial holds

instance (priority := low) [looking : Looking script] :
    Disciplined conduct phase outlook script :=
  .intro fun state _ => by
    rw [looking.only.unmoved]
    exact .stay phase state

theorem Disciplined.bind (first : Disciplined conduct phase outlook script)
    (later : ∀ value, Disciplined conduct phase (.tokens 0) (next value)) :
    Disciplined conduct phase outlook (script >>= next) :=
  .intro fun state holds => (first.proceeds state holds).trans
    ((later _).proceeds _ (Outlook.holds_none _))

instance (priority := low) [first : Disciplined conduct phase outlook script]
    [later : ∀ value, Disciplined conduct phase (.tokens 0) (next value)] :
    Disciplined conduct phase outlook (script >>= next) :=
  first.bind later

instance (priority := low) {script : Script Unit} {next : Unit → Script α}
    [first : Disciplined conduct phase outlook script]
    [later : Disciplined conduct phase (.tokens 0) (next ())] :
    Disciplined conduct phase outlook (script >>= next) :=
  first.bind fun _ => later

instance (priority := low) {test : Script Bool} [first : Disciplined conduct phase outlook test]
    [second : Disciplined conduct phase (.tokens 0) yes]
    [third : Disciplined conduct phase (.tokens 0) no] :
    Disciplined conduct phase outlook
      (test >>= fun answer => if answer = true then yes else no) :=
  first.bind fun _ => inferInstance

/-! ### Steps -/

instance : Disciplined conduct phase (.tokens (count + 1)) Script.bump :=
  .intro fun _ holds => .bump (phase.allows_of_isProper (holds 0 (Nat.succ_pos count)))

instance (priority := high) {next : Unit → Script α}
    [later : Disciplined conduct phase (.tokens count) (next ())] :
    Disciplined conduct phase (.tokens (count + 1)) (Script.bump >>= next) :=
  .intro fun _ holds =>
    (Proceeds.bump (phase.allows_of_isProper (holds 0 (Nat.succ_pos count)))).trans
      (later.proceeds _ holds.bump)

instance (expected : List TokenKind) : Disciplined conduct phase outlook (missing expected) :=
  .intro fun state _ => .report phase state expected

instance (priority := high) {next : Unit → Script α}
    [later : Disciplined conduct phase outlook (next ())] :
    Disciplined conduct phase outlook (Script.forgetBrackets >>= next) :=
  .intro fun state holds =>
    (Proceeds.steer phase state state.operators state.declared 0).trans
      (later.proceeds _ (holds.of_kindAhead fun _ => rfl))

instance (space : Namespace) (operator : String) (fixity : Fixity) :
    Disciplined conduct phase outlook (Script.declare space operator fixity) :=
  .intro fun state _ => by
    obtain ⟨operators, declared, done⟩ :=
      declare_eq conduct.scene.setting state space operator fixity
    rw [Script.run, done]
    exact .steer phase state operators declared state.openBrackets

instance (priority := high) (space : Namespace) (operator : String) (fixity : Fixity)
    {next : Bool → Script α} [later : ∀ value, Disciplined conduct phase outlook (next value)] :
    Disciplined conduct phase outlook (Script.declare space operator fixity >>= next) :=
  .intro fun state holds => by
    have declares : Disciplined conduct phase outlook
      (Script.declare space operator fixity) := inferInstance
    refine (declares.proceeds state holds).trans ((later _).proceeds _ (holds.of_kindAhead ?_))
    intro index
    obtain ⟨operators, declared, done⟩ :=
      declare_eq conduct.scene.setting state space operator fixity
    rw [Script.run, done]
    rfl

theorem Proceeds.skipOne {asks : Bool} {cause : Cause} (expected : List TokenKind)
    (skips : phase.skips = true) (fits : Fits cause (kindAhead scene state 0))
    (onward : kindAhead scene state 0 ≠ .eof) :
    Proceeds scene.setting asks phase state
      (skipOver scene.setting state cause expected 1) := by
  refine .skip expected skips fits (fun index atFront => ?_) (confined_of_length_le ?_)
  · rw [Nat.le_zero.mp atFront]
    exact onward
  · rw [List.length_map]
    exact List.length_take_le _ _

instance (problem : FixityFault) (expected : List TokenKind) [lasting : Lasting outlook]
    [skips : Decided phase.skips] :
    Disciplined conduct phase outlook
      (Script.fault (.fixity problem) expected Script.bump) :=
  .intro fun _ holds => .skipOne expected skips.holds (.inr ⟨problem, rfl⟩) (lasting.onward holds)

instance (expected : List TokenKind) [lasting : Lasting outlook] [skips : Decided phase.skips] :
    Disciplined conduct phase outlook (misfit expected) :=
  .intro fun _ holds => .skipOne expected skips.holds (.inl rfl) (lasting.onward holds)

/--
Rounds that take one token each, or none and are the last, and take a
separator only while something that was skipped is open.
-/
theorem iterate_skips {setting : Setting} {round : Skipped → State → ForInStep Skipped × State}
    (once : ∀ skipped state, (∃ last, round skipped state = (.done last, state)) ∨
      (state.tokenAt setting 0).kind ≠ .eof ∧
        ((state.tokenAt setting 0).kind = .layoutSep → skipped.isOpen = true) ∧
        round skipped state =
          (.yield (skipped.after (state.tokenAt setting 0).kind), state.bump setting))
    (bound : Nat) {taken : List Token} (guarded : Guarded taken) (state : State) :
    ∃ count, (iterate round bound (skippedOver taken) state).2 =
        (State.bump setting)^[count] state ∧
      (∀ index < count, (state.tokenAt setting index).kind ≠ .eof) ∧
      Guarded (taken ++ (state.ahead.take count).map Lexeme.token) := by
  induction bound generalizing taken state with
  | zero => exact ⟨0, rfl, nofun, by simpa using guarded⟩
  | succ bound ih =>
    rw [iterate]
    rcases once _ state with ⟨last, ran⟩ | ⟨onward, isOpen, ran⟩
    · rw [ran]
      exact ⟨0, rfl, nofun, by simpa using guarded⟩
    · rw [ran]
      cases found : state.ahead with
      | nil =>
        rw [State.tokenAt, found] at onward
        exact absurd rfl onward
      | cons lexeme rest =>
        have current : state.tokenAt setting 0 = lexeme.token := by
          rw [State.tokenAt, found]
          rfl
        have ahead : (state.bump setting).ahead = rest := by
          rw [bump_of_cons setting found]
        rw [current] at isOpen ⊢
        obtain ⟨count, ended, further, later⟩ := ih (guarded.snoc isOpen) _
        rw [skippedOver_snoc] at ended
        refine ⟨count + 1, ended, fun index early => ?_, ?_⟩
        · cases index with
          | zero => exact onward
          | succ index =>
            rw [← tokenAt_bump]
            exact further index (Nat.lt_of_succ_lt_succ early)
        · rw [ahead, List.append_assoc] at later
          exact later

theorem run_seesStop_start (stops : List TokenKind) (state : State) :
    ((seesStop {} stops).run scene.setting rules state).1 =
      ((seesEnd stops).run scene.setting rules state).1 := by
  rw [run_look kind, run_look kind]
  generalize (kind.run scene.setting rules state).1 = kind
  by_cases atEnd : kind = .eof
  · simp [atEnd]
  · simp [atEnd]

theorem run_seesEnd_of_eq (stops : List TokenKind) {one two : State}
    (sameKind : kindAhead scene two 0 = kindAhead scene one 0)
    (sameBrackets : two.openBrackets = one.openBrackets) :
    ((seesEnd stops).run scene.setting rules two).1 =
      ((seesEnd stops).run scene.setting rules one).1 := by
  have asked : (kind.run scene.setting rules two).1 = (kind.run scene.setting rules one).1 :=
    sameKind
  rw [run_look kind, run_look kind, asked]
  split
  · rfl
  · split
    · show decide (0 < two.openBrackets) = decide (0 < one.openBrackets)
      rw [sameBrackets]
    · rfl

/-- Skipping goes on in front of a separator only while something that was skipped is open. -/
theorem isOpen_of_seesStop {skipped : Skipped} {stops : List TokenKind}
    (further : ((seesStop skipped stops).run scene.setting rules state).1 = false)
    (separates : kindAhead scene state 0 = .layoutSep) : skipped.isOpen = true := by
  have asked : (kind.run scene.setting rules state).1 = .layoutSep := separates
  rw [run_look, asked] at further
  by_contra closed
  simp only [Skipped.isOpen, decide_not, Bool.or_eq_true, not_or, Bool.not_eq_true,
    Bool.not_eq_false'] at closed
  simp [closed, Script.run, pure] at further

/--
What fits nowhere is skipped, one token at least, and not the end of the text.
Separators are skipped only behind something that was opened on the way.
-/
theorem run_skipTo (turns : 0 < scene.setting.rounds) {stops : List TokenKind}
    (goesOn : ((seesEnd stops).run scene.setting rules state).1 = false) (cause : Cause)
    (expected : List TokenKind) :
    ∃ count, ((Script.fault cause expected (skipTo stops)).run scene.setting rules state).2 =
        skipOver scene.setting state cause expected (count + 1) ∧
      (∀ index ≤ count, (state.tokenAt scene.setting index).kind ≠ .eof) ∧
      Guarded ((state.ahead.take (count + 1)).map Lexeme.token) := by
  obtain ⟨bound, rounds⟩ := Nat.exists_eq_add_one_of_ne_zero (Nat.ne_of_gt turns)
  have same : ((seesEnd stops).run scene.setting rules (entered scene state)).1 =
      ((seesEnd stops).run scene.setting rules state).1 :=
    run_seesEnd_of_eq stops (kindAhead_takeTrivia state 0) (by
      obtain ⟨ahead, trail, reached, taken⟩ := takeTrivia_eq scene.setting state
      rw [entered, taken]
      rfl)
  have starts : ((seesStop {} stops).run scene.setting rules (entered scene state)).1 = false := by
    rw [run_seesStop_start, same]
    exact goesOn
  obtain ⟨lexeme, rest, found, current⟩ := ahead_of_kindAhead (Denying.denies _ _ _ goesOn)
  have bumped : ((entered scene state).bump scene.setting).ahead = rest := by
    have ahead : (entered scene state).ahead = { lexeme with trivia := [] } :: rest := by
      rw [entered, takeTrivia_of_cons _ found]
      rfl
    rw [bump_of_cons _ ahead]
  have first : kindAhead scene (entered scene state) 0 = lexeme.token.kind := by
    exact (kindAhead_takeTrivia state 0).trans (congrArg Token.kind current)
  have alone : Guarded [lexeme.token] := by
    refine guarded_nil.snoc fun separates => ?_
    exact absurd (isOpen_of_seesStop starts (first.trans separates)) Bool.false_ne_true
  have skips : ∃ count, ((skipTo stops).run scene.setting rules (entered scene state)).2 =
      (State.bump scene.setting)^[count] ((entered scene state).bump scene.setting) ∧
      (∀ index < count, (((entered scene state).bump scene.setting).tokenAt scene.setting
        index).kind ≠ .eof) ∧
      Guarded ([lexeme.token] ++ (((entered scene state).bump scene.setting).ahead.take
        count).map Lexeme.token) := by
    rw [run_ignore, Script.run, rounds, iterate, run_look, starts]
    change ∃ count, (iterate _ bound (Skipped.after {} (kindAhead scene (entered scene state) 0))
      _).2 = _ ∧ _
    rw [first]
    refine iterate_skips (fun skipped state => ?_) bound alone _
    rw [run_look]
    split
    · exact .inl ⟨skipped, rfl⟩
    · next further =>
        have goesFurther := Bool.not_eq_true _ ▸ further
        exact .inr ⟨Denying.denies _ _ _ goesFurther, isOpen_of_seesStop goesFurther, rfl⟩
  obtain ⟨count, skipped, further, guarded⟩ := skips
  rw [bumped] at guarded
  refine ⟨count, ?_, fun index within => ?_, ?_⟩
  · rw [skipOver, ← entered, Function.iterate_succ_apply, ← skipped]
    rfl
  · cases index with
    | zero => exact Denying.denies _ _ _ goesOn
    | succ index =>
      have onward := further index within
      rw [tokenAt_bump] at onward
      rw [← tokenAt_takeTrivia]
      exact onward
  · rw [found]
    exact guarded

instance (expected stops : List TokenKind) [skips : Decided phase.skips] :
    Disciplined conduct phase outlook (recover expected stops) :=
  .intro fun state _ => by
    rw [run_look]
    split
    · exact .report phase state expected
    · next goesOn =>
        obtain ⟨count, skipped, onward, guarded⟩ := run_skipTo conduct.turns
          (Bool.not_eq_true _ ▸ goesOn) _ expected
        refine Eq.mpr (congrArg _ skipped) ?_
        exact .skip expected skips.holds (.inl rfl) onward (.inr guarded)

instance (problem : LexFault) [skips : Decided phase.skips] :
    Disciplined conduct phase (.fault problem) (faultyAtom problem) :=
  .intro fun state holds => by
    have fits : Fits (.lex problem) (kindAhead conduct.scene state 0) := by
      rw [show kindAhead conduct.scene state 0 = .error problem from holds]
      exact .inl rfl
    exact .skipOne [] skips.holds fits (Lasting.onward holds)

/-! ### Nodes -/

theorem Outlook.Holds.entered (holds : outlook.Holds scene state) :
    outlook.Holds scene (entered scene state) :=
  holds.of_kindAhead fun index => kindAhead_takeTrivia state index

instance {body : Script (Option NodeKind)} [opens : Decided phase.opens]
    [named : Answers (Option.any isLoose) body]
    [inside : Disciplined conduct phase.encloses outlook body] :
    Disciplined conduct phase outlook (Script.node body) :=
  .intro fun state holds => by
    have proceeds := inside.proceeds _ holds.entered
    have loose := named.accepted conduct.scene.setting conduct.run (entered conduct.scene state)
    rw [Script.run, ← Grammar.entered]
    split
    · next kind after ran =>
        rw [ran] at proceeds loose
        exact .node opens.holds loose proceeds
    · next after ran =>
        rw [ran] at loose
        cases loose

instance (priority := 900) {body : Script (Option NodeKind)}
    [named : Answers (Option.all isLoose) body]
    [inside : Disciplined conduct encloses outlook body] :
    Disciplined conduct encloses outlook (Script.node body) :=
  .intro fun state holds => by
    have proceeds := inside.proceeds _ holds.entered
    have loose := named.accepted conduct.scene.setting conduct.run (entered conduct.scene state)
    rw [Script.run, ← Grammar.entered]
    split
    · next kind after ran =>
        rw [ran] at proceeds loose
        exact .node rfl loose proceeds
    · next after ran =>
        rw [ran] at proceeds
        exact .abandon proceeds

instance (priority := 900) {body : Script (Option NodeKind)}
    [named : Answers (Option.all isConstruct) body]
    [inside : Disciplined conduct false outlook body] :
    Disciplined conduct true outlook (Script.node body) :=
  .intro fun state holds => by
    have proceeds := inside.proceeds _ holds.entered
    have construct :=
      named.accepted conduct.scene.setting conduct.run (entered conduct.scene state)
    rw [Script.run, ← Grammar.entered]
    split
    · next kind after ran =>
        rw [ran] at proceeds construct
        exact .enclose construct proceeds
    · next after ran =>
        rw [ran] at proceeds
        exact .abandon proceeds.mono

/-! ### Levels -/

theorem run_enter (state : State) :
    enter.run scene.setting rules state =
      if state.depth < maxDepth then (true, { state with depth := state.depth + 1 })
      else (false, ((recover [] []).run scene.setting rules state).2) := by
  rw [enter, run_bind, Script.run]
  split <;> rfl

theorem Rising.intro (rises : ∀ state, outlook.Holds conduct.scene state → ∃ inner : State,
      Proceeds conduct.scene.setting conduct.asks phase state inner ∧
        (script.run conduct.scene.setting conduct.run state).2 =
          { inner with depth := inner.depth - 1 }) :
    Rising conduct phase outlook script :=
  ⟨fun state _ => rises state⟩

theorem Rising.rises (rising : Rising conduct phase outlook script) (state : State)
    (holds : outlook.Holds conduct.scene state) : ∃ inner : State,
      Proceeds conduct.scene.setting conduct.asks phase state inner ∧
        (script.run conduct.scene.setting conduct.run state).2 =
          { inner with depth := inner.depth - 1 } :=
  rising.meets state trivial holds

instance : Rising conduct phase outlook Script.leave :=
  .intro fun state _ => ⟨state, .stay phase state, rfl⟩

instance [first : Rising conduct phase outlook script] [looking : ∀ value, Looking (next value)] :
    Rising conduct phase outlook (script >>= next) :=
  .intro fun state holds => by
    rw [run_bind, (looking _).only.unmoved]
    exact first.rises state holds

instance (priority := low) [first : Disciplined conduct phase outlook script]
    [later : ∀ value, Rising conduct phase (.tokens 0) (next value)] :
    Rising conduct phase outlook (script >>= next) :=
  .intro fun state holds => by
    obtain ⟨inner, proceeds, left⟩ := (later _).rises _ (Outlook.holds_none _)
    exact ⟨inner, (first.proceeds state holds).trans proceeds, left⟩

instance (priority := high) {next : Unit → Script α}
    [later : Rising conduct phase (.tokens count) (next ())] :
    Rising conduct phase (.tokens (count + 1)) (Script.bump >>= next) :=
  .intro fun _ holds => by
    obtain ⟨inner, proceeds, left⟩ := later.rises _ holds.bump
    have allowed := phase.allows_of_isProper (holds 0 (Nat.succ_pos count))
    exact ⟨inner, (Proceeds.bump allowed).trans proceeds, left⟩

theorem Rising.node {body : Script (Option NodeKind)} {accepts : NodeKind → Bool}
    {around inner : Phase} (named : Answers (Option.any accepts) body)
    (inside : Rising conduct inner outlook body)
    (closes : ∀ {state after : State} {kind : NodeKind}, accepts kind = true →
      Proceeds conduct.scene.setting conduct.asks inner (entered conduct.scene state) after →
        Proceeds conduct.scene.setting conduct.asks around state (after.mark (.finish kind none))) :
    Rising conduct around outlook (Script.node body) :=
  .intro fun state holds => by
    obtain ⟨middle, proceeds, left⟩ := inside.rises _ holds.entered
    have accepted := named.accepted conduct.scene.setting conduct.run (entered conduct.scene state)
    rw [Script.run, ← Grammar.entered]
    split
    · next kind after ran =>
        rw [ran] at left accepted
        rw [show after = _ from left]
        exact ⟨_, closes accepted proceeds, rfl⟩
    · next after ran =>
        rw [ran] at accepted
        cases accepted

instance {body : Script (Option NodeKind)} [named : Answers (Option.any isLoose) body]
    [inside : Rising conduct true outlook body] : Rising conduct true outlook (Script.node body) :=
  .node named inside fun loose proceeds => .node rfl loose proceeds

instance (priority := 900) {body : Script (Option NodeKind)}
    [named : Answers (Option.any isConstruct) body]
    [inside : Rising conduct false outlook body] : Rising conduct true outlook (Script.node body) :=
  .node named inside fun construct proceeds => .enclose construct proceeds

instance (priority := high) [first : Rising conduct true outlook yes]
    [second : Disciplined conduct encloses (.tokens 0) no] :
    Disciplined conduct encloses outlook
      (enter >>= fun entered => if entered = true then yes else no) :=
  .intro fun state holds => by
    rw [run_bind, run_enter]
    split
    · next above =>
        obtain ⟨inner, proceeds, left⟩ := first.rises { state with depth := state.depth + 1 }
          (holds.of_kindAhead fun _ => rfl)
        rw [if_pos rfl, left]
        exact .nest encloses above proceeds
    · have skipped : Disciplined conduct encloses outlook (recover [] []) := inferInstance
      exact (skipped.proceeds state holds).trans (second.proceeds _ (Outlook.holds_none _))

theorem proceeds_iterate {setting : Setting} {asks : Bool} {round : σ → State → ForInStep σ × State}
    (once : ∀ value state, Proceeds setting asks phase state (round value state).2)
    (bound : Nat) (value : σ) (state : State) :
    Proceeds setting asks phase state (iterate round bound value state).2 :=
  iterate_keeps _
    (fun value inner before => before.trans (once value inner)) bound value state
    (.stay phase state)

theorem Disciplined.loop (step : ∀ value, Disciplined conduct phase (.tokens 0) (round value)) :
    Disciplined conduct phase outlook (Script.loop start round) :=
  .intro fun state _ => proceeds_iterate
    (fun value state => (step value).proceeds state (Outlook.holds_none state)) _ start state

instance [step : ∀ value, Disciplined conduct phase (.tokens 0) (round value)] :
    Disciplined conduct phase outlook (Script.loop start round) :=
  .loop step

/-! ### Behind finished nodes -/

instance (value : α) : Leaving conduct true (pure value : Script α) :=
  ⟨fun _ finished => finished rfl⟩

instance [first : Leaving conduct behind script]
    [later : ∀ value, Leaving conduct true (next value)] :
    Leaving conduct behind (script >>= next) :=
  ⟨fun state finished => (later _).leaves _ fun _ => first.leaves state finished⟩

instance (priority := high) [Looking script]
    [later : ∀ value, Leaving conduct behind (next value)] :
    Leaving conduct behind (script >>= next) where
  leaves state finished := by
    rw [run_look]
    exact (later _).leaves state finished

instance [Decidable condition] [first : Leaving conduct behind yes]
    [second : Leaving conduct behind no] :
    Leaving conduct behind (if condition then yes else no) := by
  split
  · exact first
  · exact second

instance (cause : Cause) (expected : List TokenKind) (body : Script Unit) :
    Leaving conduct behind (Script.fault cause expected body) :=
  ⟨fun _ _ => (finished_mark_iff _).mpr rfl⟩

instance (kind : NodeKind) (body : Script Unit) : Leaving conduct behind (Script.wrap kind body) :=
  ⟨fun _ _ => (finished_mark_iff _).mpr rfl⟩

instance (kind : NodeKind) (body : Script Unit) : Leaving conduct behind (inside kind body) :=
  ⟨fun _ _ => (finished_mark_iff _).mpr rfl⟩

instance [step : ∀ value, Leaving conduct true (round value)] :
    Leaving conduct true (Script.loop start round) where
  leaves _ finished := loop_keeps Finished
    (fun value inner before => (step value).leaves inner fun _ => before) (finished rfl)

instance (priority := low) {script : Script Bool} [leaving : Leaving conduct behind script] :
    Closing conduct behind script :=
  ⟨fun state finished _ => leaving.leaves state finished⟩

instance : Closing conduct behind (pure behind : Script Bool) :=
  ⟨fun _ finished => finished⟩

instance : Closing conduct behind (pure false : Script Bool) :=
  ⟨nofun⟩

theorem Closing.bind {next : α → Script Bool}
    (later : ∀ value, Closing conduct false (next value)) :
    Closing conduct behind (script >>= next) :=
  ⟨fun _ _ => (later _).closes _ nofun⟩

instance {next : α → Script Bool} [later : ∀ value, Closing conduct false (next value)] :
    Closing conduct behind (script >>= next) :=
  .bind later

instance (priority := high) {script : Script Bool} {next : Bool → Script Bool}
    [first : Closing conduct behind script] [later : ∀ value, Closing conduct value (next value)] :
    Closing conduct behind (script >>= next) :=
  ⟨fun state finished => (later _).closes _ (first.closes state finished)⟩

instance (priority := high) {next : α → Script Bool} [Looking script]
    [later : ∀ value, Closing conduct behind (next value)] :
    Closing conduct behind (script >>= next) where
  closes state finished := by
    rw [run_look]
    exact (later _).closes state finished

instance [Decidable condition] {yes no : Script Bool} [first : Closing conduct behind yes]
    [second : Closing conduct behind no] :
    Closing conduct behind (if condition then yes else no) := by
  split
  · exact first
  · exact second

instance {yes no : Script Bool} [first : Closing conduct true yes]
    [second : Closing conduct false no] :
    Closing conduct behind (if behind = true then yes else no) := by
  cases behind with
  | true => exact first
  | false => exact second

instance (body : Script (Option NodeKind)) : Closing conduct behind (Script.node body) where
  closes state _ answer := by
    rw [Script.run] at answer ⊢
    split
    · exact (finished_mark_iff _).mpr rfl
    · next ran =>
        rw [ran] at answer
        cases answer

instance (priority := high) {next : Unit → Script Bool}
    [later : ∀ value, Closing conduct behind (next value)] :
    Closing conduct behind (Script.leave >>= next) :=
  ⟨fun state finished => (later ()).closes { state with depth := state.depth - 1 } finished⟩

instance (rule : Rule) : Closing conduct behind (Script.call rule) :=
  ⟨fun state _ => conduct.closes rule state⟩

instance (priority := 900) {script : Script Bool} {next : Bool → Script α}
    [closing : Closing conduct false script] [first : Disciplined conduct phase outlook script]
    [later : ∀ value, Joining conduct phase value (.tokens 0) (next value)] :
    Disciplined conduct phase outlook (script >>= next) :=
  .intro fun state holds => (first.proceeds state holds).trans ((later _).meets _
    (closing.closes state nofun) (Outlook.holds_none _))

instance (priority := low) [disciplined : Disciplined conduct phase outlook script] :
    Joining conduct phase behind outlook script :=
  ⟨fun state _ => disciplined.proceeds state⟩

theorem Joining.proceeds (joining : Joining conduct phase behind outlook script) (state : State)
    (finished : Behind behind state) (holds : outlook.Holds conduct.scene state) :
    Proceeds conduct.scene.setting conduct.asks phase state
      (script.run conduct.scene.setting conduct.run state).2 :=
  joining.meets state finished holds

instance [first : Joining conduct phase behind outlook script]
    [later : ∀ value, Disciplined conduct phase (.tokens 0) (next value)] :
    Joining conduct phase behind outlook (script >>= next) :=
  ⟨fun state finished holds => (first.proceeds state finished holds).trans
    ((later _).proceeds _ (Outlook.holds_none _))⟩

instance (priority := high) [first : Joining conduct phase true outlook yes]
    [second : Disciplined conduct phase outlook no] :
    Joining conduct phase behind outlook (if behind = true then yes else no) where
  meets state finished holds := by
    split
    · next isBehind => exact first.proceeds state (fun _ => finished isBehind) holds
    · exact second.proceeds state holds

instance {kind : NodeKind} [loose : Decided (isLoose kind)]
    [inside : Disciplined conduct encloses outlook body] :
    Joining conduct encloses true outlook (Script.wrap kind body) where
  meets _ finished holds :=
    .wrap (finished rfl) loose.holds (inside.proceeds _ (holds.of_kindAhead fun _ => rfl))

instance [step : ∀ value, Joining conduct phase true (.tokens 0) (round value)]
    [keeps : ∀ value, Leaving conduct true (round value)] :
    Joining conduct phase true outlook (Script.loop start round) where
  meets state finished _ := by
    refine (loop_keeps (fun inner => Finished inner ∧
      Proceeds conduct.scene.setting conduct.asks phase state inner)
      (fun value inner before => ?_) ⟨finished rfl, .stay phase state⟩).2
    exact ⟨(keeps value).leaves inner fun _ => before.1,
      before.2.trans ((step value).proceeds inner (fun _ => before.1) (Outlook.holds_none inner))⟩

/-! ### Calls -/

instance : Disciplined conduct encloses outlook (Script.call .expr) :=
  .intro fun state _ => (conduct.proceeds .expr state (Outlook.holds_none state)).mono

instance : Disciplined conduct true outlook (Script.call .operand) :=
  .intro fun state _ => conduct.proceeds .operand state (Outlook.holds_none state)

instance (level : Level) (least : Nat) (parent : Option ChainOperator) :
    Disciplined conduct true outlook (Script.call (.chain level least parent)) :=
  .intro fun state _ => by
    have proceeds := conduct.proceeds (.chain level least parent) state (Outlook.holds_none state)
    cases level with
    | expr => exact proceeds
    | binder | type => exact proceeds.mono

instance : Disciplined conduct encloses (.tokens (count + 1)) (Script.call .update) :=
  .intro fun state holds => (conduct.proceeds .update state
    (Outlook.holds_one (holds 0 (Nat.succ_pos count)))).mono

instance : Disciplined conduct encloses outlook (Script.call .binder) :=
  .intro fun state _ => (conduct.proceeds .binder state (Outlook.holds_none state)).mono

instance : Disciplined conduct encloses outlook (Script.call .binderAtom) :=
  .intro fun state _ => (conduct.proceeds .binderAtom state (Outlook.holds_none state)).mono

instance : Disciplined conduct encloses outlook (Script.call .type) :=
  .intro fun state _ => (conduct.proceeds .type state (Outlook.holds_none state)).mono

instance : Disciplined conduct encloses outlook (Script.call .localDecl) :=
  .intro fun state _ => (conduct.proceeds .localDecl state (Outlook.holds_none state)).mono

/-! ### Answers -/

section Answers

variable {accepts : α → Bool}

instance {value : α} [accepted : Decided (accepts value)] :
    Answers accepts (pure value : Script α) :=
  ⟨fun _ _ _ => accepted.holds⟩

theorem Answers.bind {script : Script β} {next : β → Script α}
    (later : ∀ value, Answers accepts (next value)) : Answers accepts (script >>= next) :=
  ⟨fun setting rules _ => (later _).accepted setting rules _⟩

instance {script : Script β} {next : β → Script α}
    [later : ∀ value, Answers accepts (next value)] : Answers accepts (script >>= next) :=
  .bind later

instance [Decidable condition] [first : Answers accepts yes] [second : Answers accepts no] :
    Answers accepts (if condition then yes else no) := by
  split
  · exact first
  · exact second

instance (value : α) [accepted : Decided (accepts value)] :
    Decided (Option.any accepts (some value)) :=
  accepted

instance (value : α) [accepted : Decided (accepts value)] :
    Decided (Option.all accepts (some value)) :=
  accepted

instance : Decided (Option.all accepts none) :=
  ⟨rfl⟩

instance [named : Answers accepts script] :
    Answers (Option.any accepts) (script >>= fun value => pure (some value)) :=
  ⟨fun setting rules state => named.accepted setting rules state⟩

instance {closing : Script β} {leaving : Script σ} [named : Answers accepts script] :
    Answers (Option.any accepts) (script >>= fun value => closing >>= fun _ =>
      leaving >>= fun _ => pure (some value)) :=
  ⟨fun setting rules state => named.accepted setting rules state⟩

instance (priority := low) {script : Script (Option α)}
    [named : Answers (Option.any accepts) script] : Answers (Option.all accepts) script where
  accepted setting rules state := by
    have accepted := named.accepted setting rules state
    cases answer : (script.run setting rules state).1 with
    | none => rfl
    | some value =>
      rw [answer] at accepted
      exact accepted

end Answers

instance [Decidable condition] {yes no : NodeKind} [first : Decided (isLoose yes)]
    [second : Decided (isLoose no)] : Decided (isLoose (if condition then yes else no)) := by
  split
  · exact first
  · exact second

/-! ### Words -/

instance (priority := 900) [isMark : Decided wanted.isBlockMark] :
    Disciplined conduct .top outlook (eat wanted) :=
  .intro fun state _ => by
    by_cases seen : kindAhead conduct.scene state 0 = wanted
    · rw [run_eat_of_sees seen]
      refine .bump ?_
      rw [State.current, show (state.tokenAt conduct.scene.setting 0).kind = wanted from seen,
        Phase.allows, isMark.holds, Bool.or_true]
    · rw [run_eat_of_not_sees seen]
      exact .stay .top state

theorem position_skipOver (onward : kindAhead scene state 0 ≠ .eof) (cause : Cause)
    (expected : List TokenKind) (count : Nat) :
    state.position < (skipOver scene.setting state cause expected (count + 1)).position := by
  obtain ⟨lexeme, rest, found, -⟩ := ahead_of_kindAhead onward
  have ahead : (entered scene state).ahead = { lexeme with trivia := [] } :: rest := by
    rw [entered, takeTrivia_of_cons _ found]
    rfl
  obtain ⟨_, _, _, taken⟩ := takeTrivia_eq scene.setting state
  obtain ⟨_, _, _, again⟩ := takeTrivia_eq scene.setting _
  have further : ((entered scene state).bump scene.setting).position = state.position + 1 := by
    rw [bump_of_cons _ ahead, again, entered, taken]
    rfl
  refine Nat.lt_of_lt_of_le (Nat.lt_of_lt_of_eq (Nat.lt_succ_self _) further.symm) ?_
  exact (Consumes.iterate_bump scene.setting count
    _).least

theorem proceeds_progress (steps : Disciplined conduct phase (.tokens 0) item)
    (skips : phase.skips = true) (onward : kindAhead conduct.scene state 0 ≠ .eof) :
    Proceeds conduct.scene.setting conduct.asks phase state
        ((progress item).run conduct.scene.setting conduct.run state).2 ∧
      state.position <
        ((progress item).run conduct.scene.setting conduct.run state).2.position := by
  have proceeds := steps.proceeds state (Outlook.holds_none state)
  change Proceeds _ _ _ _ (Script.run _ _ (if
    (item.run conduct.scene.setting conduct.run state).2.position = state.position then
      misfit [] else pure ()) (item.run conduct.scene.setting conduct.run state).2).2 ∧
    state.position < (Script.run _ _ (if
      (item.run conduct.scene.setting conduct.run state).2.position = state.position then
        misfit [] else pure ()) (item.run conduct.scene.setting conduct.run state).2).2.position
  generalize (item.run conduct.scene.setting conduct.run state).2 = after at proceeds ⊢
  split
  · next unmoved =>
      have same : kindAhead conduct.scene after 0 = kindAhead conduct.scene state 0 := by
        rw [proceeds.consumes.kindAhead unmoved]
      have notEnd : kindAhead conduct.scene after 0 ≠ .eof := by
        rw [same]
        exact onward
      refine ⟨proceeds.trans (.skipOne [] skips (.inl rfl) notEnd), ?_⟩
      rw [← unmoved]
      exact position_skipOver notEnd _ _ 0
  · next moved =>
      exact ⟨proceeds, Nat.lt_of_le_of_ne proceeds.consumes.least (Ne.symm moved)⟩

instance [steps : Disciplined conduct phase (.tokens 0) item] [lasting : Lasting outlook]
    [skips : Decided phase.skips] : Disciplined conduct phase outlook (progress item) :=
  .intro fun _ holds => (proceeds_progress steps skips.holds (lasting.onward holds)).1

/-! ### Blocks -/

/-- A round of a block: its end, a separator, or an item. -/
def blockRound (item : Script Unit) (required : Option (List TokenKind)) (empty : Bool) :
    Script (ForInStep Bool) := do
  let kind ← kind
  if kind = .layoutEnd || kind = .eof then
    match required with
    | some first => if empty then missing first
    | none => pure ()
    ignore (expect .layoutEnd)
    pure (.done empty)
  else if kind = .layoutSep then
    Script.bump
    pure (.yield empty)
  else
    progress item
    unless (← seesAny itemEnds) do
      recover [.layoutSep, .layoutEnd] []
    pure (.yield false)

theorem block_eq (item : Script Unit) (required : Option (List TokenKind)) :
    block item required = (do
      if (← expect .layoutStart) then
        ignore (Script.loop true (blockRound item required))) :=
  rfl

def EndsBlock (setting : Setting) (inner final : State) : Prop :=
  (inner.current setting).kind = .layoutEnd ∧ final = inner.bump setting ∨
    (inner.current setting).kind = .eof ∧ final = inner

theorem kindAhead_report (state : State) (expected : List TokenKind) (index : Nat) :
    kindAhead scene (state.report scene.setting .syntactic expected) index =
      kindAhead scene state index := by
  obtain ⟨trail, lastReport, reported⟩ := report_eq scene.setting state .syntactic expected
  rw [reported]
  rfl

theorem endsBlock_expect (phase : Phase) {inner : State}
    (ends : kindAhead conduct.scene inner 0 = .layoutEnd ∨ kindAhead conduct.scene inner 0 = .eof) :
    ∃ last, Proceeds conduct.scene.setting conduct.asks phase inner last ∧
      EndsBlock conduct.scene.setting last
        ((expect .layoutEnd).run conduct.scene.setting conduct.run inner).2 := by
  rcases ends with isEnd | isEof
  · rw [run_expect_of_sees isEnd]
    exact ⟨inner, .stay phase inner, .inl ⟨isEnd, rfl⟩⟩
  · have other : kindAhead conduct.scene inner 0 ≠ .layoutEnd := by
      rw [isEof]
      rintro ⟨⟩
    rw [run_expect_of_not_sees other]
    refine ⟨_, .report phase inner [.layoutEnd], .inr ⟨?_, rfl⟩⟩
    exact (kindAhead_report inner _ 0).trans isEof

theorem run_blockRound (disciplined : Disciplined conduct encloses (.tokens 0) item)
    (required : Option (List TokenKind)) (empty : Bool) (state : State) :
    (∃ last final inner, (blockRound item required empty).run conduct.scene.setting conduct.run
          state = (.done last, final) ∧
        Proceeds conduct.scene.setting conduct.asks (.block encloses) state inner ∧
        EndsBlock conduct.scene.setting inner final) ∨
      ∃ next after, (blockRound item required empty).run conduct.scene.setting conduct.run
          state = (.yield next, after) ∧
        Proceeds conduct.scene.setting conduct.asks (.block encloses) state after ∧
        after.ahead.length < state.ahead.length := by
  rw [blockRound, run_look]
  rw [show (kind.run conduct.scene.setting conduct.run state).1 =
    kindAhead conduct.scene state 0 from rfl]
  split
  · next ends =>
      have ends : kindAhead conduct.scene state 0 = .layoutEnd ∨
          kindAhead conduct.scene state 0 = .eof := by
        simpa using ends
      cases required with
      | none =>
        obtain ⟨inner, onward, stops⟩ := endsBlock_expect (.block encloses) ends
        exact .inl ⟨empty, _, inner, rfl, onward, stops⟩
      | some first =>
        cases empty with
        | false =>
          obtain ⟨inner, onward, stops⟩ := endsBlock_expect (.block encloses) ends
          exact .inl ⟨false, _, inner, rfl, onward, stops⟩
        | true =>
          rw [← kindAhead_report state first 0] at ends
          obtain ⟨inner, onward, stops⟩ := endsBlock_expect (.block encloses) ends
          exact .inl ⟨true, _, inner, rfl, .trans (.report _ state first) onward, stops⟩
  · next goesOn =>
      have onward : kindAhead conduct.scene state 0 ≠ .eof := by
        intro isEof
        simp [isEof] at goesOn
      split
      · next separates =>
          have allowed : (Phase.block encloses).allows
              (state.current conduct.scene.setting).kind = true := by
            rw [State.current, show (state.tokenAt conduct.scene.setting 0).kind = .layoutSep from
              separates]
            rfl
          obtain ⟨lexeme, rest, found, -⟩ := ahead_of_kindAhead onward
          refine .inr ⟨empty, state.bump conduct.scene.setting, rfl, .bump allowed, ?_⟩
          rw [bump_of_cons _ found, found]
          exact Nat.lt_succ_self _
      · have rest : Disciplined conduct encloses (.tokens 0) (do
            unless (← seesAny itemEnds) do
              recover [.layoutSep, .layoutEnd] []
            pure (ForInStep.yield false)) := by
          dsimp only
          infer_instance
        obtain ⟨proceeds, further⟩ := proceeds_progress disciplined rfl onward
        have later := rest.proceeds
          ((progress item).run conduct.scene.setting conduct.run state).2 (Outlook.holds_none _)
        have all := proceeds.trans later
        refine .inr ⟨false, _, Prod.ext ?_ rfl, .within all,
          all.consumes.shorter (Nat.lt_of_lt_of_le further later.consumes.least)⟩
        rw [run_bind, run_look]
        split <;> rfl

theorem run_blockRounds (disciplined : Disciplined conduct encloses (.tokens 0) item)
    (required : Option (List TokenKind)) {final : State}
    (ran : ((Script.loop true (blockRound item required)).run conduct.scene.setting conduct.run
      state).2 = final) :
    (∃ inner, Proceeds conduct.scene.setting conduct.asks (.block encloses) state inner ∧
        EndsBlock conduct.scene.setting inner final) ∨
      conduct.scene.setting.rounds ≤ state.ahead.length ∧
        Proceeds conduct.scene.setting conduct.asks (.block encloses) state final := by
  rw [← ran]
  refine iterate_ends_or
    (fun _ => Proceeds conduct.scene.setting conduct.asks _ state)
    (fun _ final => ∃ inner, Proceeds conduct.scene.setting conduct.asks _ state
      inner ∧ EndsBlock conduct.scene.setting inner final)
    (fun empty inner before => ?_) conduct.scene.setting.rounds true state (.stay _ state)
  rcases run_blockRound disciplined required empty inner with
    ⟨last, final, middle, ran, onward, stops⟩ | ⟨next, after, ran, onward, shorter⟩
  · exact .inl ⟨last, final, ran, middle, before.trans onward, stops⟩
  · exact .inr ⟨next, after, ran, before.trans onward, shorter⟩

instance [disciplined : Disciplined conduct encloses (.tokens 0) item]
    (required : Option (List TokenKind)) :
    Disciplined conduct encloses outlook (block item required) :=
  .intro fun state _ => by
    rw [block_eq, run_bind]
    by_cases opens : kindAhead conduct.scene state 0 = .layoutStart
    · rw [run_expect_of_sees opens, if_pos rfl, run_ignore]
      have shorter := (Consumes.bump conduct.scene.setting state).fewer
      rcases run_blockRounds disciplined required rfl with
        ⟨inner, proceeds, closed | ended⟩ | ⟨short, proceeds⟩
      · rw [closed.2]
        exact .block opens proceeds closed.1
      · rw [ended.2]
        exact .unclosed opens proceeds (.inl ended.1)
      · exact .unclosed opens proceeds (.inr (Nat.le_trans short shorter))
    · rw [run_expect_of_not_sees opens]
      exact .report _ state [.layoutStart]

end Offside.Grammar
