/-!
# Membership in tables of code points

A class of characters is given by a table of closed ranges.  Long tables list
them by the distances between them and by their lengths.  A strided range
holds every second (or third, ...) code point between its ends.  The code
points whose UTF-8 encodings start with one byte form a closed range as well.
-/

namespace Offside.Text

/--
The closed ranges that start the first number behind the end of the range
before and extend over the second number of further code points.
-/
def spaced (gaps : List (Nat × Nat)) : List (Nat × Nat) :=
  go 0 gaps
where
  go (stop : Nat) : List (Nat × Nat) → List (Nat × Nat)
    | [] => []
    | (gap, more) :: rest => (stop + gap, stop + gap + more) :: go (stop + gap + more) rest

/-- Spaced ranges that hold every code point, or every second (or third, ...) one. -/
def strided (stride : Nat) (gaps : List (Nat × Nat)) : List (Nat × Nat × Nat) :=
  (spaced gaps).map fun range => (range.1, range.2, stride)

def inRanges (ranges : List (Nat × Nat)) (code : Nat) : Bool :=
  ranges.any fun range => range.1 ≤ code && code ≤ range.2

def inStrides (ranges : List (Nat × Nat × Nat)) (code : Nat) : Bool :=
  ranges.any fun range =>
    range.1 ≤ code && code ≤ range.2.1 && (code - range.1) % range.2.2 == 0

/-- The closed range has a code point in common with one of the closed ranges. -/
def meetsRanges (ranges : List (Nat × Nat)) (block : Nat × Nat) : Bool :=
  ranges.any fun range => range.1 ≤ block.2 && block.1 ≤ range.2

/--
The closed range of the code points whose UTF-8 encoding starts with the same
byte as that of `code`: one code point in ASCII, 64 where encodings take two
bytes, 4096 where they take three and 262144 where they take four.
-/
def leadBlock (code : Nat) : Nat × Nat :=
  if code < 0x80 then (code, code)
  else if code < 0x800 then block 0x80 0x40
  else if code < 0x10000 then block 0x800 0x1000
  else block 0x10000 0x40000
where
  /-- The aligned block of the given size that holds `code`, cut off below `least`. -/
  block (least size : Nat) : Nat × Nat :=
    let start := code / size * size
    (max least start, start + size - 1)

end Offside.Text
