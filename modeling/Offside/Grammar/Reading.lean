import Offside.Grammar.Script

/-!
# Reading and recovering

The words in which productions are written: looking at kinds of tokens,
taking tokens that are there and reporting those that are not, skipping what
fits nowhere, and reading the items of a list or a block.
-/

namespace Offside.Grammar

open Script

@[reducible]
def kindAt (ahead : Nat) : Script TokenKind := do
  return (← peek ahead).kind

@[reducible]
def kind : Script TokenKind :=
  kindAt 0

@[reducible]
def sees (wanted : TokenKind) : Script Bool := do
  return (← kind) = wanted

@[reducible]
def seesAny (wanted : List TokenKind) : Script Bool := do
  return wanted.contains (← kind)

@[reducible]
def seesWord (word : String) : Script Bool := do
  let sight ← peek 0
  return sight.kind = .lowerName && sight.text = word

@[reducible]
def seesOperator (spelling : String) : Script Bool := do
  let sight ← peek 0
  return sight.kind = .operator && sight.text = spelling

/-- Take the token ahead if it is of the kind, and say whether it was. -/
@[reducible]
def eat (wanted : TokenKind) : Script Bool := do
  if (← sees wanted) then
    bump
    pure true
  else pure false

/-- Take the token ahead if it is an identifier spelled like this, and say whether it was. -/
@[reducible]
def eatWord (word : String) : Script Bool := do
  if (← seesWord word) then
    bump
    pure true
  else pure false

@[reducible]
def missing (expected : List TokenKind) : Script Unit :=
  report .syntactic expected

/-- Take a token of the kind, or report that it is missing. -/
@[reducible]
def expect (wanted : TokenKind) : Script Bool := do
  if (← eat wanted) then pure true
  else
    missing [wanted]
    pure false

@[reducible]
def ignore {α : Type} (script : Script α) : Script Unit := do
  let _ ← script
  pure ()

@[reducible]
def nodeOf (kind : NodeKind) (body : Script Unit) : Script Bool :=
  node do
    body
    pure (some kind)

/-- A node of the kind, in places where nobody asks for it. -/
@[reducible]
def inside (kind : NodeKind) (body : Script Unit) : Script Unit :=
  ignore (nodeOf kind body)

@[reducible]
def single (kind : NodeKind) : Script Bool :=
  nodeOf kind bump

/-- A node around what has just been read, if that is a node, and what the body adds. -/
@[reducible]
def around (finished : Bool) (kind : NodeKind) (body : Script Unit) : Script Unit :=
  if finished then wrap kind body else inside kind body

@[reducible]
def misfit (expected : List TokenKind) : Script Unit := do
  fault (Cause.ofMisfit (← kind)) expected bump

/--
The token ahead ends the current construct when something in it fits nowhere:
the end of the text, of a block or of an item, a keyword that begins a
declaration, one of the stops, or the partner of an open bracket.
-/
@[reducible]
def seesEnd (stops : List TokenKind) : Script Bool := do
  let kind ← kind
  if kind = .eof || kind = .layoutSep || kind = .layoutEnd || kind.startsTopLevel ||
      stops.contains kind then
    pure true
  else if kind.isClosing then insideBrackets
  else pure false

/-- How many blocks and brackets have been opened while skipping. -/
structure Skipped where
  blocks : Nat := 0
  brackets : Nat := 0

def Skipped.after (skipped : Skipped) : TokenKind → Skipped
  | .layoutStart => { skipped with blocks := skipped.blocks + 1 }
  | .layoutEnd => { skipped with blocks := skipped.blocks - 1 }
  | .opening _ => { skipped with brackets := skipped.brackets + 1 }
  | .closing _ => { skipped with brackets := skipped.brackets - 1 }
  | _ => skipped

@[reducible]
def seesStop (skipped : Skipped) (stops : List TokenKind) : Script Bool := do
  let kind ← kind
  if kind = .eof then pure true
  else if skipped.blocks = 0 && skipped.brackets = 0 &&
      (kind = .layoutSep || kind = .layoutEnd || kind.startsTopLevel || stops.contains kind) then
    pure true
  else if skipped.brackets = 0 && kind.isClosing then insideBrackets
  else pure false

/-- Take tokens up to one that ends the current construct. -/
@[reducible]
def skipTo (stops : List TokenKind) : Script Unit :=
  ignore <| loop ({} : Skipped) fun skipped => do
    if (← seesStop skipped stops) then pure (.done skipped)
    else
      let kind ← kind
      bump
      pure (.yield (skipped.after kind))

/-- Report what would have been right, and skip to the end of the current construct. -/
@[reducible]
def recover (expected stops : List TokenKind) : Script Unit := do
  if (← seesEnd stops) then missing expected
  else fault (Cause.ofMisfit (← kind)) expected (skipTo stops)

/-- Take the closing bracket, skipping what stands in front of it. -/
@[reducible]
def expectClosing (bracket : Bracket) : Script Unit := do
  unless (← eat (.closing bracket)) do
    recover [.closing bracket] [.closing bracket]
    ignore (eat (.closing bracket))

/--
Go one level deeper; where that is too deep, skip the construct.  What has been
entered is left again by `leave`.
-/
def enter : Script Bool := do
  if (← deepen) then pure true
  else
    recover [] []
    pure false

@[reducible]
def whileSeen (test : Script Bool) (body : Script Unit) : Script Unit :=
  loop () fun _ => do
    if (← test) then
      body
      pure (.yield ())
    else pure (.done ())

@[reducible]
def separated (separator : TokenKind) (item : Script Unit) : Script Unit :=
  loop () fun _ => do
    item
    if (← eat separator) then pure (.yield ()) else pure (.done ())

/-- Run an item; if it takes no token, take one as something that fits nowhere. -/
@[reducible]
def progress (item : Script Unit) : Script Unit := do
  let before ← position
  item
  if (← position) = before then misfit []

def itemEnds : List TokenKind :=
  [.layoutSep, .layoutEnd, .eof]

/--
The items of a block between its marks.  A block that needs an item is
reported when it is empty, with what could have started the item.
-/
def block (item : Script Unit) (required : Option (List TokenKind)) : Script Unit := do
  if (← expect .layoutStart) then
    ignore <| loop true fun empty => do
      let kind ← kind
      if kind = .layoutEnd || kind = .eof then
        match required with
        | some first => if empty then missing first
        | none => pure ()
        ignore (expect .layoutEnd)
        pure (.done empty)
      else if kind = .layoutSep then
        bump
        pure (.yield empty)
      else
        progress item
        unless (← seesAny itemEnds) do
          recover [.layoutSep, .layoutEnd] []
        pure (.yield false)

end Offside.Grammar
