/-!
# Spans and positions

A span is a stretch of text between two byte offsets of its UTF-8 encoding.
A position is what a reader calls the same place: a line and a column, both
counted from one, the column in characters.
-/

namespace Offside

/-- The number of bytes that UTF-8 needs for the characters. -/
def byteLength : List Char → Nat
  | [] => 0
  | char :: rest => char.utf8Size + byteLength rest

/-- A stretch of text from byte offset `start` up to, not including, `stop`. -/
structure Span where
  start : Nat
  stop : Nat
deriving DecidableEq, Repr, Inhabited

/-- A place in a text: line and column, both counted from one. -/
structure Position where
  line : Nat
  column : Nat
deriving DecidableEq, Repr, Inhabited

namespace Position

def origin : Position :=
  ⟨1, 1⟩

def next (position : Position) (char : Char) : Position :=
  if char = '\n' then ⟨position.line + 1, 1⟩ else ⟨position.line, position.column + 1⟩

/-- The place reached when reading starts at `position` and stops at or after `offset`. -/
def advance (position : Position) : List Char → (offset : Nat) → Position
  | [], _ => position
  | char :: rest, offset =>
    if offset = 0 then position
    else advance (position.next char) rest (offset - char.utf8Size)

def ofOffset (source : String) (offset : Nat) : Position :=
  advance origin source.toList offset

def display (position : Position) : String :=
  toString position.line ++ ":" ++ toString position.column

end Position

namespace Span

def empty (offset : Nat) : Span :=
  ⟨offset, offset⟩

/-- The number of bytes in the span, unless its ends are out of order. -/
def length? (span : Span) : Option Nat :=
  if span.stop < span.start then none else some (span.stop - span.start)

def isEmpty (span : Span) : Bool :=
  span.start = span.stop

def merge (left right : Span) : Span :=
  ⟨min left.start right.start, max left.stop right.stop⟩

/--
The offset lies in the span or at its end, so that a cursor placed right after
a token still finds it.
-/
def touches (span : Span) (offset : Nat) : Bool :=
  span.start ≤ offset && offset ≤ span.stop

def covers (span : Span) (offset : Nat) : Bool :=
  span.start ≤ offset && offset < span.stop

def precedes (left right : Span) : Bool :=
  left.start < right.start || (left.start = right.start && left.stop < right.stop)

/-- The places of both ends, when the span fits into the text. -/
def positions? (span : Span) (source : String) : Option (Position × Position) :=
  if source.utf8ByteSize < span.stop || span.stop < span.start then none
  else some (Position.ofOffset source span.start, Position.ofOffset source span.stop)

def display (span : Span) : String :=
  toString span.start ++ ".." ++ toString span.stop

end Span

end Offside
