import Offside.Grammar.Modules
import Offside.Layout
import Offside.Tree.Build
import Offside.Tree.Walk

/-!
# Parsing

Parsing never fails.  A text becomes tokens, its layout is resolved, the
grammar leaves a trail over the tokens, and the trail is made into a tree in
which everything malformed stands in a node of its own.  A caller can only
give up on a parse before it has ended.
-/

namespace Offside

/-- How to parse. -/
structure ParseOptions where
  /-- The fixities of the whole text count from its beginning, and not from their declaration. -/
  collectsFixities : Bool := true
  /-- Operators of unknown fixity are reported. -/
  reportsUnknown : Bool := false
  /-- The distance between two tab stops. -/
  tabWidth : Nat := 8
deriving DecidableEq, Repr

/-- What parsing a text gives. -/
structure Parse where
  root : Tree
  /-- The fixities given, and those that the text declares. -/
  operators : OperatorTable
deriving Repr

/-- What is known when a parse ends or is given up. -/
structure ParseRun where
  /-- The tree and the fixities; of a run that was given up they are of no use. -/
  parse : Parse
  cancelled : Bool
  /-- How often the question whether to give up was asked. -/
  polls : Nat
deriving Repr

namespace Parse

/-- The diagnostics of the tree in the order of the text. -/
def errors (parse : Parse) : List Diagnostic :=
  parse.root.diagnostics

def hasErrors (parse : Parse) : Bool :=
  !parse.errors.isEmpty

def openingTable (options : ParseOptions) (seed : OperatorTable) (tokens : List Token) :
    OperatorTable :=
  if options.collectsFixities then seed.declare (DeclaredFixity.scan tokens) else seed

/-- What stays the same while the tokens of a text of this length are parsed. -/
def setting (options : ParseOptions) (isCancelled : Nat → Bool) (sourceLength : Nat)
    (lexemes : List Grammar.Lexeme) : Grammar.Setting :=
  { sourceLength
    reportsUnknown := options.reportsUnknown
    declaresInOrder := !options.collectsFixities
    isCancelled
    rounds := lexemes.length + 2 }

/--
Parse a text.  The question whether to give up is answered by the number of
times it has been asked before.
-/
@[irreducible]
def run (options : ParseOptions) (seed : OperatorTable) (isCancelled : Nat → Bool)
    (source : String) : ParseRun :=
  let tokens := Layout.tokens options.tabWidth source
  let lexemes := Grammar.Lexeme.group tokens
  let (cancelled, state) :=
    Grammar.readModule (setting options isCancelled source.utf8ByteSize lexemes)
      { ahead := lexemes, operators := openingTable options seed tokens }
  { parse :=
      { root := Tree.ofTrail tokens state.trail.toList
        operators := state.operators }
    cancelled
    polls := state.polls }

def unlessCancelled? (options : ParseOptions) (seed : OperatorTable) (isCancelled : Nat → Bool)
    (source : String) : Option Parse :=
  let ran := run options seed isCancelled source
  if ran.cancelled then none else some ran.parse

def withTable (options : ParseOptions) (seed : OperatorTable) (source : String) : Parse :=
  (run options seed (fun _ => false) source).parse

def ofSource (source : String) : Parse :=
  withTable {} .standard source

def cancelledMessage : String :=
  "parse cancelled"

end Parse

end Offside
