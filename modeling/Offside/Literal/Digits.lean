import Offside.Text.Alphabet

/-!
# Positional numbers

The value of a row of digits in some base, and the two ways in which a sign
may stand in front of it.
-/

namespace Offside.Literal

open Offside.Text

/-- The value of a digit of base sixteen, if the character is one. -/
def digitValue? (char : Char) : Option Nat :=
  if isDigit char then some (char.toNat - '0'.toNat)
  else if 'a' ≤ char && char ≤ 'f' then some (char.toNat - 'a'.toNat + 10)
  else if 'A' ≤ char && char ≤ 'F' then some (char.toNat - 'A'.toNat + 10)
  else none

def baseDigit? (base : Nat) (char : Char) : Option Nat :=
  (digitValue? char).filter (· < base)

/-- The value of further digits after those that make up `value`. -/
def positionalFrom? (base value : Nat) : List Char → Option Nat
  | [] => some value
  | char :: rest =>
    (baseDigit? base char).bind fun digit => positionalFrom? base (value * base + digit) rest

/-- The value of a row of digits, of which there must be at least one. -/
def positional? (base : Nat) (digits : List Char) : Option Nat :=
  if digits.isEmpty then none else positionalFrom? base 0 digits

/-- A number without sign below the bound; a plus may stand in front of it. -/
def unsigned? (base bound : Nat) (text : List Char) : Option Nat :=
  let digits := if text.head? = some '+' then text.tail else text
  (positional? base digits).filter (· < bound)

/-- The least number that does not fit into 64 bits with a sign. -/
def signedBound : Nat :=
  Nat.pow 2 63

/-- A number with an optional sign that fits into 64 bits. -/
def signed64? (base : Nat) (text : List Char) : Option Int :=
  match text with
  | '-' :: digits =>
    ((positional? base digits).filter (· ≤ signedBound)).map fun value => -(value : Int)
  | '+' :: digits => ((positional? base digits).filter (· < signedBound)).map Int.ofNat
  | digits => ((positional? base digits).filter (· < signedBound)).map Int.ofNat

end Offside.Literal
