import Offside.Token.Scan

/-!
# The offside rule

Blocks are marked by indentation.  Resolving the layout of a list of tokens
puts virtual tokens in front of the real ones: where a block starts, where
the next item of a block starts, and where a block ends.  Lines that fit no
open block get a marker of the fault.  Real tokens are passed on unchanged
and in order.

The state of the resolver is a stack of frames, innermost first.  The first
significant token of the text sets the column of the root frame, which never
opens or closes.  A layout keyword makes the next significant token open a
block at its own column, provided that it stands to the right of the
enclosing block.
-/

namespace Offside.Layout

/-- The blocks, named after the keyword that opens them. -/
inductive Block where
  | whereBlock
  | letBlock
  | doBlock
  | adoBlock
  | ofBlock
deriving DecidableEq, Repr

def Block.ofKeyword? : TokenKind → Option Block
  | .keyword .whereWord => some .whereBlock
  | .keyword .letWord => some .letBlock
  | .keyword .doWord | .qualifiedDo => some .doBlock
  | .keyword .adoWord | .qualifiedAdo => some .adoBlock
  | .keyword .ofWord => some .ofBlock
  | _ => none

/-- What is open at some point of the text. -/
inductive Frame where
  /-- The text as a whole, whose first significant token stands at the column. -/
  | root (column : Nat)
  /-- A block whose items stand at the column. -/
  | block (kind : Block) (column : Nat)
  /-- A bracket that waits for its partner. -/
  | bracket
  /-- An `if` that waits for its `then`. -/
  | pendingThen
  /-- An `if` with its `then`, waiting for an `else`. -/
  | pendingElse
deriving DecidableEq, Repr

def Frame.isBlock : Frame → Bool
  | .block _ _ => true
  | _ => false

abbrev Stack := List Frame

/-- The column of the innermost block or root, and whether it is the root. -/
structure Enclosing where
  column : Nat
  isRoot : Bool
deriving DecidableEq, Repr

/-- The innermost block or root, unless a bracket is open inside it. -/
def enclosing? : Stack → Option Enclosing
  | [] => none
  | .root column :: _ => some ⟨column, true⟩
  | .block _ column :: _ => some ⟨column, false⟩
  | .bracket :: _ => none
  | .pendingThen :: rest => enclosing? rest
  | .pendingElse :: rest => enclosing? rest

/-- The virtual tokens that close the blocks among the frames. -/
def closings (frames : Stack) : List TokenKind :=
  (frames.filter Frame.isBlock).map fun _ => .layoutEnd

/-- The frames above the innermost bracket, and those below it. -/
def splitAtBracket? : Stack → Option (Stack × Stack)
  | [] => none
  | .bracket :: rest => some ([], rest)
  | frame :: rest => (splitAtBracket? rest).map fun (above, below) => (frame :: above, below)

/--
The frames up to the innermost frame that satisfies the test, that frame
included, and those below it.  Brackets and the root stop the search.
-/
def splitAfter? (wanted : Frame → Bool) : Stack → Option (Stack × Stack)
  | [] => none
  | frame :: rest =>
    if wanted frame then some ([frame], rest)
    else
      match frame with
      | .bracket => none
      | .root _ => none
      | _ => (splitAfter? wanted rest).map fun (above, below) => (frame :: above, below)

/-- The frame is a block that `in` closes. -/
def Frame.isBindingBlock : Frame → Bool
  | .block .letBlock _ => true
  | .block .adoBlock _ => true
  | _ => false

/--
The offside rule for the first token of a line: what remains of the stack,
and what is put in front of the token.  Blocks to the right of the token are
closed, a block at its column gets a separator, and a token that lands
between two blocks after closing one is marked.
-/
def offside (kind : TokenKind) (column : Nat) :
    (popped : Bool) → Stack → Stack × List TokenKind
  | _, [] => ([], [])
  | popped, .pendingThen :: rest =>
    match enclosing? rest with
    | some outer =>
      if column ≤ outer.column then offside kind column popped rest
      else (.pendingThen :: rest, [])
    | none => (.pendingThen :: rest, [])
  | popped, .pendingElse :: rest =>
    match enclosing? rest with
    | some outer =>
      if column ≤ outer.column then offside kind column popped rest
      else (.pendingElse :: rest, [])
    | none => (.pendingElse :: rest, [])
  | popped, .bracket :: rest =>
    match enclosing? rest with
    | some outer =>
      if column < outer.column ||
          (outer.isRoot && column = outer.column && !kind.isClosing) then
        let (stack, inserted) := offside kind column popped rest
        (stack, .layoutError .unclosedDelimiter :: inserted)
      else (.bracket :: rest, [])
    | none => (.bracket :: rest, [])
  | popped, .block block blockColumn :: rest =>
    if column = blockColumn then (.block block blockColumn :: rest, [.layoutSep])
    else if column < blockColumn then
      let (stack, inserted) := offside kind column true rest
      (stack, .layoutEnd :: inserted)
    else
      (.block block blockColumn :: rest, if popped then [.layoutError .misaligned] else [])
  | popped, .root rootColumn :: rest =>
    (.root rootColumn :: rest,
      if column < rootColumn then [.layoutError .leftOfRoot, .layoutSep]
      else if column = rootColumn then [.layoutSep]
      else if popped then [.layoutError .misaligned]
      else [])

/-- The frame does not outlive a `where` that stands at the column. -/
def Frame.endsAtWhere (column : Nat) : Frame → Bool
  | .block .doBlock _ => true
  | .block .adoBlock _ => true
  | .block _ blockColumn => column ≤ blockColumn
  | .pendingThen => true
  | .pendingElse => true
  | .bracket => false
  | .root _ => false

/--
A `where` ends every `do` and `ado` block, every conditional, and every other
block to whose right it does not stand.
-/
def collapseWhere (column : Nat) (stack : Stack) : Stack × List TokenKind :=
  (stack.dropWhile (Frame.endsAtWhere column),
    closings (stack.takeWhile (Frame.endsAtWhere column)))

/--
What a significant token does to the stack before it is passed on, and what
is put in front of it.  `offsideApplies` holds for the first token of a line,
unless the token opened a block.
-/
def before (kind : TokenKind) (column : Nat) (offsideApplies : Bool) (stack : Stack) :
    Stack × List TokenKind :=
  let ordinary : Stack × List TokenKind :=
    if offsideApplies then offside kind column false stack else (stack, [])
  match kind with
  | .closing _ =>
    match splitAtBracket? stack with
    | some (above, below) => (below, closings above)
    | none => ordinary
  | .comma =>
    match splitAtBracket? stack with
    | some (above, below) => (.bracket :: below, closings above)
    | none => ordinary
  | .keyword .inWord =>
    match splitAfter? Frame.isBindingBlock stack with
    | some (above, below) => (below, closings above)
    | none => ordinary
  | .keyword .thenWord =>
    match splitAfter? (· = .pendingThen) stack with
    | some (above, below) => (.pendingElse :: below, closings above)
    | none => ordinary
  | .keyword .elseWord =>
    match splitAfter? (· = .pendingElse) stack with
    | some (above, below) => (below, closings above)
    | none => ordinary
  | .keyword .whereWord => collapseWhere column stack
  | _ => ordinary

/-- The state of the resolver between two tokens. -/
structure State where
  /-- What is open, innermost first; empty before the first significant token. -/
  stack : Stack := []
  /-- The block that the next significant token opens. -/
  pending : Option Block := none
  /-- The column that has been reached, counted from zero. -/
  column : Nat := 0
  /-- No significant token has been seen on the current line. -/
  lineStart : Bool := true
  /-- The first significant token of the text was `module`. -/
  startsWithModule : Bool := false
  /-- The end of the last token. -/
  offset : Nat := 0
deriving DecidableEq, Repr

/-- The column after a character; a tab moves to the next multiple of the tab width. -/
def nextColumn (tabWidth column : Nat) (char : Char) : Nat :=
  if char = '\n' then 0
  else if char = '\t' then (column / tabWidth + 1) * tabWidth
  else column + 1

def columnAfter (tabWidth column : Nat) (text : String) : Nat :=
  text.toList.foldl (nextColumn tabWidth) column

/--
A block may open at the column: it stands to the right of the enclosing block,
or no block encloses it, or it is the body of the module that the text starts
with, which need not be indented.
-/
def canOpen (state : State) (block : Block) (column : Nat) : Bool :=
  match enclosing? state.stack with
  | none => true
  | some outer =>
    outer.column < column ||
      (outer.isRoot && block = .whereBlock && state.startsWithModule &&
        state.stack.length = 1 && outer.column ≤ column)

/--
Open the pending block in front of a token: the stack, what is put in front
of the token, and whether a block is open now.  A block that may not open is
empty.
-/
def openPending (state : State) (column : Nat) : Stack × List TokenKind × Bool :=
  match state.pending with
  | none => (state.stack, [], false)
  | some block =>
    if canOpen state block column then
      (.block block column :: state.stack, [.layoutStart], true)
    else (state.stack, [.layoutStart, .layoutEnd], false)

def openedFrame? : TokenKind → Option Frame
  | .opening _ => some .bracket
  | .keyword .ifWord => some .pendingThen
  | _ => none

def State.pass (tabWidth : Nat) (state : State) (token : Token) : State :=
  { state with
    column := columnAfter tabWidth state.column token.text
    lineStart := state.lineStart || token.text.toList.contains '\n'
    offset := token.span.stop }

/-- One significant token: the state after it, and what is put in front of it. -/
def State.significant (tabWidth : Nat) (state : State) (token : Token) :
    State × List TokenKind :=
  let passed := state.pass tabWidth token
  let (stack, inserted) :=
    match state.stack with
    | [] => ([Frame.root state.column], [])
    | _ :: _ =>
      let (opened, starts, isOpen) := openPending state state.column
      let (stack, inserted) :=
        before token.kind state.column (state.lineStart && !isOpen) opened
      (stack, starts ++ inserted)
  ({ passed with
      stack := (openedFrame? token.kind).toList ++ stack
      pending := Block.ofKeyword? token.kind
      lineStart := false
      startsWithModule :=
        if state.stack.isEmpty then token.kind = .keyword .moduleWord
        else state.startsWithModule },
    inserted)

/-- What is owed at the end of the text: an empty pending block, and the end of every block. -/
def State.finish (state : State) : List TokenKind :=
  (if state.pending.isSome then [.layoutStart, .layoutEnd] else []) ++ closings state.stack

def insert (kinds : List TokenKind) (offset : Nat) : List Token :=
  kinds.map fun kind => Token.virtual kind offset

/-- Resolve the layout of the remaining tokens; a missing end of text is added. -/
def resolveFrom (tabWidth : Nat) (state : State) : List Token → List Token
  | [] => insert state.finish state.offset ++ [Token.virtual .eof state.offset]
  | token :: rest =>
    if token.kind.isInsignificant then
      token :: resolveFrom tabWidth (state.pass tabWidth token) rest
    else if token.kind = .eof then
      insert state.finish token.span.start ++ [token]
    else
      let (next, inserted) := state.significant tabWidth token
      insert inserted token.span.start ++ token :: resolveFrom tabWidth next rest

/-- Resolve the layout of a list of tokens.  A tab width of zero counts as one. -/
def resolve (tabWidth : Nat) (tokens : List Token) : List Token :=
  resolveFrom (max tabWidth 1) {} tokens

def tokens (tabWidth : Nat) (source : String) : List Token :=
  resolve tabWidth (Token.scan source)

end Offside.Layout
