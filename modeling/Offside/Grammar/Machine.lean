import Offside.Fixity.Table
import Offside.Grammar.Script

/-!
# Running scripts

The machine that runs scripts holds the tokens ahead, each together with the
trivia in front of it, and the trail of what has been done.  Trivia goes to
the node that is open when the token behind it is taken or a node is opened;
markers of layout faults and comments that never closed become nodes of their
own on the way.
-/

namespace Offside.Grammar

def maxDepth : Nat :=
  100

/-- A token that the grammar sees, with the trivia in front of it. -/
structure Lexeme where
  trivia : List Token
  token : Token
deriving Repr

/-- Group tokens into lexemes; `trivia` is what came before them. -/
def Lexeme.groupFrom (trivia : List Token) : List Token → List Lexeme
  | [] => []
  | token :: rest =>
    if token.kind.isVisible then ⟨trivia, token⟩ :: groupFrom [] rest
    else groupFrom (trivia ++ [token]) rest

/-- The tokens that the grammar sees, each with the trivia in front of it. -/
def Lexeme.group (tokens : List Token) : List Lexeme :=
  groupFrom [] tokens

/-- What stays the same during a run. -/
structure Setting where
  /-- The length of the text in bytes. -/
  sourceLength : Nat
  /-- Operators of unknown fixity are reported. -/
  reportsUnknown : Bool
  /-- Fixities count from their declaration on, and not for the whole text. -/
  declaresInOrder : Bool
  /-- The answers to the questions whether to give up. -/
  isCancelled : Nat → Bool
  /-- How often a loop may go round at most. -/
  rounds : Nat

/-- What changes during a run. -/
structure State where
  /-- The tokens that have not been taken. -/
  ahead : List Lexeme
  /-- How many tokens the grammar has taken. -/
  position : Nat := 0
  /-- The end of the last token taken, trivia included. -/
  reached : Nat := 0
  /-- What has been done. -/
  trail : Array Mark := #[]
  /-- The fixities in force. -/
  operators : OperatorTable
  /-- The fixities declared so far. -/
  declared : OperatorTable := {}
  /-- How many brackets are open. -/
  openBrackets : Nat := 0
  /-- How deep productions are nested. -/
  depth : Nat := 0
  /-- Where something missing was reported last. -/
  lastReport : Option Nat := none
  /-- How often the question whether to give up has been asked. -/
  polls : Nat := 0

namespace State

/-- A token ahead; behind the last one there is only the end of the text. -/
def tokenAt (setting : Setting) (state : State) (ahead : Nat) : Token :=
  match state.ahead[ahead]? with
  | some lexeme => lexeme.token
  | none => Token.virtual .eof setting.sourceLength

def current (setting : Setting) (state : State) : Token :=
  state.tokenAt setting 0

def peek (setting : Setting) (state : State) (ahead : Nat) : Sight :=
  let token := state.tokenAt setting ahead
  ⟨token.kind, token.text⟩

/-- What a diagnostic says about a token; text that runs into the end counts as the end. -/
def foundOf (setting : Setting) (token : Token) : Found :=
  match token.kind with
  | .eof => .endOfFile
  | .error fault =>
    if fault.isUnterminated && setting.sourceLength ≤ token.span.stop then .endOfFile
    else .token token.kind token.text
  | kind => .token kind token.text

def sighting (setting : Setting) (state : State) : Found :=
  foundOf setting (state.current setting)

def diagnose (setting : Setting) (state : State) (cause : Cause) (expected : List TokenKind) :
    Diagnostic :=
  { cause
    expected := TokenKind.distinct expected
    found := state.sighting setting
    span := Span.empty state.reached
    recovery := (state.current setting).span.start }

def mark (state : State) (mark : Mark) : State :=
  { state with trail := state.trail.push mark }

def take (state : State) (token : Token) : State :=
  { state with trail := state.trail.push .token, reached := token.span.stop }

/-- The cause that a piece of trivia is to be reported for. -/
def triviaCause? : TokenKind → Option Cause
  | .layoutError fault => some (.layout fault)
  | .error fault => some (.lex fault)
  | _ => none

/-- Take a piece of trivia; what is at fault gets a node of its own. -/
def takeTrivium (setting : Setting) (state : State) (token : Token) : State :=
  match triviaCause? token.kind with
  | none => state.take token
  | some cause =>
    let diagnostic : Diagnostic :=
      { cause
        expected := []
        found :=
          match cause with
          | .lex _ => .endOfFile
          | _ => state.sighting setting
        span := token.span
        recovery := (state.current setting).span.start }
    (((state.mark .start).take token).mark (.finish .error (some diagnostic)))

def takeTrivia (setting : Setting) (state : State) : State :=
  match state.ahead with
  | [] => state
  | lexeme :: rest =>
    { lexeme.trivia.foldl (takeTrivium setting) state with
      ahead := { lexeme with trivia := [] } :: rest }

def bracketsAfter (kind : TokenKind) (openBrackets : Nat) : Nat :=
  match kind with
  | .opening _ => openBrackets + 1
  | .closing _ => openBrackets - 1
  | _ => openBrackets

def bump (setting : Setting) (state : State) : State :=
  let state := state.takeTrivia setting
  match state.ahead with
  | [] => state
  | lexeme :: rest =>
    { state.take lexeme.token with
      ahead := rest
      position := state.position + 1
      openBrackets := bracketsAfter lexeme.token.kind state.openBrackets }

/--
Report something missing.  Of several syntactic reports at one place only the
first is kept.
-/
def report (setting : Setting) (state : State) (cause : Cause) (expected : List TokenKind) :
    State :=
  if cause = .syntactic && state.lastReport = some state.reached then state
  else
    let diagnostic := state.diagnose setting cause expected
    let lastReport := if cause = .syntactic then some state.reached else state.lastReport
    { (state.mark .start).mark (.finish .error (some diagnostic)) with lastReport }

/-- The same diagnostic, with reading resumed at the token ahead. -/
def resume (setting : Setting) (state : State) (diagnostic : Diagnostic) : Diagnostic :=
  { diagnostic with recovery := (state.current setting).span.start }

/-- Put the node closed last into a node that reports the cause. -/
def blame (setting : Setting) (state : State) (cause : Cause) (found : Found) : State :=
  let offset := (state.current setting).span.start
  let diagnostic : Diagnostic :=
    { cause, expected := [], found, span := Span.empty offset, recovery := offset }
  (state.mark (.precede 0)).mark (.finish .error (some diagnostic))

/-- Look for a wanted token; `depth` counts the brackets and blocks opened on the way. -/
def searchFrom (wanted : Sight → Bool) (stops : List TokenKind) :
    (depth : Nat) → List Lexeme → Bool
  | _, [] => false
  | depth, lexeme :: rest =>
    let kind := lexeme.token.kind
    if kind = .eof then false
    else if depth = 0 && wanted ⟨kind, lexeme.token.text⟩ then true
    else if depth = 0 && (kind = .layoutSep || kind = .layoutEnd || stops.contains kind) then
      false
    else if kind.isOpening || kind = .layoutStart then searchFrom wanted stops (depth + 1) rest
    else if kind.isClosing || kind = .layoutEnd then
      if depth = 0 then false else searchFrom wanted stops (depth - 1) rest
    else searchFrom wanted stops depth rest

/-- Declare a fixity; the answer says whether it contradicts an earlier one. -/
def declare (setting : Setting) (state : State) (space : Namespace) (operator : String)
    (fixity : Fixity) : Bool × State :=
  match state.declared.stored? space operator with
  | some previous => (previous ≠ fixity, state)
  | none =>
    (false,
      { state with
        declared := state.declared.insert space operator fixity
        operators :=
          if setting.declaresInOrder then state.operators.insert space operator fixity
          else state.operators })

def poll (setting : Setting) (state : State) : Bool × State :=
  (setting.isCancelled state.polls, { state with polls := state.polls + 1 })

end State

/-- Run the rounds of a loop until one says that it is done, or the bound is reached. -/
def iterate {σ : Type} (round : σ → State → ForInStep σ × State) :
    (bound : Nat) → σ → State → σ × State
  | 0, value, state => (value, state)
  | bound + 1, value, state =>
    match round value state with
    | (.done value, state) => (value, state)
    | (.yield value, state) => iterate round bound value state

/-- Run a script, given how to run the rules that it calls. -/
def Script.run (setting : Setting) (rules : Rule → State → Bool × State) {α : Type} :
    Script α → State → α × State
  | .result value, state => (value, state)
  | .andThen first next, state =>
    let (value, state) := first.run setting rules state
    (next value).run setting rules state
  | .peek ahead, state => (state.peek setting ahead, state)
  | .search wanted stops, state => (State.searchFrom wanted stops 0 state.ahead, state)
  | .position, state => (state.position, state)
  | .insideBrackets, state => (0 < state.openBrackets, state)
  | .sighting, state => (state.sighting setting, state)
  | .bump, state => ((), state.bump setting)
  | .report cause expected, state => ((), state.report setting cause expected)
  | .fault cause expected body, state =>
    let diagnostic := state.diagnose setting cause expected
    let state := (state.takeTrivia setting).mark .start
    let ((), state) := body.run setting rules state
    ((), state.mark (.finish .error (some (state.resume setting diagnostic))))
  | .blame cause found, state => ((), state.blame setting cause found)
  | .node body, state =>
    let state := (state.takeTrivia setting).mark .start
    match body.run setting rules state with
    | (some kind, state) => (true, state.mark (.finish kind none))
    | (none, state) => (false, state.mark .abandon)
  | .wrap kind body, state =>
    let ((), state) := body.run setting rules (state.mark (.precede 0))
    ((), state.mark (.finish kind none))
  | .deepen, state =>
    if state.depth < maxDepth then (true, { state with depth := state.depth + 1 })
    else (false, state)
  | .leave, state => ((), { state with depth := state.depth - 1 })
  | .loop start round, state =>
    iterate (fun value state => (round value).run setting rules state) setting.rounds start state
  | .call rule, state => rules rule state
  | .lookup space operator, state => (state.operators.get? space operator, state)
  | .reportsUnknown, state => (setting.reportsUnknown, state)
  | .declare space operator fixity, state => state.declare setting space operator fixity
  | .forgetBrackets, state => ((), { state with openBrackets := 0 })
  | .poll, state => state.poll setting

/--
Run a rule, given the script of every rule and a bound on the depth of calls.
A call beyond the bound leaves no node and is reported.
-/
def runRule (setting : Setting) (scripts : Rule → Script Bool) :
    (bound : Nat) → Rule → State → Bool × State
  | 0, _, state => (false, state.report setting .syntactic [])
  | bound + 1, rule, state => (scripts rule).run setting (runRule setting scripts bound) state

end Offside.Grammar
