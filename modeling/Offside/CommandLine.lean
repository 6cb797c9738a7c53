import Offside.Parse
import Offside.Tree.Outline

/-!
# The command line

The command reads one text, from a file or from standard input, and shows its
tokens, its resolved layout, its tree and its diagnostics, or those of the
four that its options ask for.  It fails when something is malformed.
-/

namespace Offside.CommandLine

def programName : String :=
  "purs-syntax"

/-! ### Arguments -/

/-- What the command can show. -/
inductive Section where
  | tokens
  | layout
  | tree
  | errors
deriving DecidableEq, Repr

def Section.all : List Section :=
  [tokens, layout, tree, errors]

def Section.option : Section → String
  | tokens => "--tokens"
  | layout => "--layout"
  | tree => "--tree"
  | errors => "--errors"

def Section.ofOption? (option : String) : Option Section :=
  all.find? fun part => part.option = option

/-- Where the text comes from. -/
inductive Source where
  | standardInput
  | file (path : String)
deriving DecidableEq, Repr

def Source.ofArgument (argument : String) : Source :=
  if argument = "-" then standardInput else file argument

/-- What the command is asked to do. -/
structure Invocation where
  source : Source
  /-- The sections asked for; none means all. -/
  sections : List Section
deriving DecidableEq, Repr

def Invocation.shows (invocation : Invocation) (part : Section) : Bool :=
  invocation.sections.isEmpty || invocation.sections.contains part

/-- Arguments that ask for nothing that the command can do. -/
inductive Misuse where
  | noSource
  | unknownOption (option : String)
deriving DecidableEq, Repr

def Misuse.message : Misuse → String
  | noSource =>
    "Usage: " ++ programName ++
      " <purescript-file> [--tokens] [--layout] [--tree] [--errors]\n\n" ++
      "Or pipe PureScript code to stdin:\n  echo 'module Main where' | " ++ programName ++ " -"
  | unknownOption option => "Unknown option '" ++ option ++ "'"

/-- What the arguments ask for; of several unknown options the first is named. -/
def Invocation.ofArguments : List String → Except Misuse Invocation
  | [] => .error .noSource
  | source :: options =>
    match options.find? fun option => (Section.ofOption? option).isNone with
    | some option => .error (.unknownOption option)
    | none => .ok ⟨Source.ofArgument source, options.filterMap Section.ofOption?⟩

/-! ### Reading -/

/-- A reason why a text could not be read. -/
inductive ReadFault where
  | noSuchFile
  | permissionDenied
  | notADirectory
  | isADirectory
  /-- The bytes are no UTF-8. -/
  | notText
  | other (reason : String)
deriving DecidableEq, Repr

def ReadFault.message : ReadFault → String
  | noSuchFile => "No such file or directory (os error 2)"
  | permissionDenied => "Permission denied (os error 13)"
  | notADirectory => "Not a directory (os error 20)"
  | isADirectory => "Is a directory (os error 21)"
  | notText => "stream did not contain valid UTF-8"
  | other reason => reason

def Source.complaint (fault : ReadFault) : Source → String
  | standardInput => "Error reading from stdin: " ++ fault.message
  | file path => "Error reading file '" ++ path ++ "': " ++ fault.message

def decode (bytes : ByteArray) : Except ReadFault String :=
  match String.fromUTF8? bytes with
  | some text => .ok text
  | none => .error .notText

/-! ### Showing -/

/-- A number, with blanks in front of it if it has less than four digits. -/
def padded (number : Nat) : String :=
  let digits := toString number
  "".pushn ' ' (4 - digits.length) ++ digits

def kindAndSpan (token : Token) : String :=
  token.kind.name ++ " @ " ++ token.span.display

def tokenLines (source : String) : List String :=
  let tokens := Token.scan source
  ("Lexed " ++ toString tokens.length ++ " tokens:") ::
    tokens.mapIdx fun index token =>
      padded index ++ ": " ++ kindAndSpan token ++ " " ++ Text.quote token.text

/-- The tokens that layout leaves, blanks and comments aside. -/
def layoutLines (source : String) : List String :=
  let options : ParseOptions := {}
  let tokens := Layout.tokens options.tabWidth source
  "Layout stream:" ::
    (tokens.filter fun token => !token.kind.isTrivia).map fun token => "  " ++ kindAndSpan token

def errorLine (source : String) (diagnostic : Diagnostic) : String :=
  let place :=
    match diagnostic.span.positions? source with
    | some (start, _) => start.display
    | none => diagnostic.span.display
  "  " ++ place ++ " [" ++ diagnostic.code ++ "]: " ++ diagnostic.message

def errorLines (source : String) (parse : Parse) : List String :=
  (toString parse.errors.length ++ " error(s)") :: parse.errors.map (errorLine source)

def unlines (lines : List String) : String :=
  String.join (lines.map (· ++ "\n"))

def Section.render (source : String) (parse : Parse) : Section → String
  | tokens => unlines (tokenLines source)
  | layout => unlines (layoutLines source)
  | tree => parse.root.outline
  | errors => unlines (errorLines source parse)

/-! ### Running -/

/-- What a run of the command leaves behind. -/
structure Report where
  /-- The exit status. -/
  status : Nat
  output : String
  complaint : String
deriving DecidableEq, Repr

def Report.failure (complaint : String) : Report :=
  { status := 1, output := "", complaint := complaint ++ "\n" }

def Invocation.render (invocation : Invocation) (source : String) : Report :=
  let parse := Parse.ofSource source
  { status := if parse.hasErrors then 1 else 0
    output := String.join ((Section.all.filter invocation.shows).map (Section.render source parse))
    complaint := "" }

/-- Show what is asked for, once the source has been read. -/
def Invocation.report (invocation : Invocation) : Except ReadFault String → Report
  | .ok source => invocation.render source
  | .error fault => .failure (invocation.source.complaint fault)

/-- Run the command, given its arguments and how to read a source. -/
def run {m : Type → Type} [Monad m] (arguments : List String)
    (read : Source → m (Except ReadFault String)) : m Report := do
  match Invocation.ofArguments arguments with
  | .error misuse => return .failure misuse.message
  | .ok invocation => return invocation.report (← read invocation.source)

end Offside.CommandLine
