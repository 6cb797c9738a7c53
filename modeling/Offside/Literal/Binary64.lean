/-!
# The nearest double

Every decimal number has a nearest number of the binary64 format; a tie goes
to the one whose last bit is zero.  The search is exact: the decimal number
is a fraction of natural numbers, and one division finds the significand.
The result is the word of bits, as a natural number.
-/

namespace Offside.Literal.Binary64

def exponentUnit : Nat :=
  Nat.pow 2 52

def signUnit : Nat :=
  Nat.pow 2 63

def infinity : Nat :=
  2047 * exponentUnit

/-- Divide, and round the quotient to the nearest natural number, a tie to the even one. -/
def roundedQuotient (numerator denominator : Nat) : Nat :=
  let quotient := numerator / denominator
  let remainder := numerator % denominator
  if denominator < 2 * remainder then quotient + 1
  else if 2 * remainder = denominator then quotient + quotient % 2
  else quotient

/--
The word whose significand counts units of `2 ^ (step - 1074)`.  A significand
of full size has its leading bit merged into the exponent.
-/
def word (step significand : Nat) : Nat :=
  if significand < exponentUnit then significand
  else min infinity (step * exponentUnit + significand)

def nearestFraction (numerator denominator : Nat) : Nat :=
  -- measured in units of the least positive number
  let scaled := numerator * Nat.pow 2 1074
  let magnitude := (scaled / denominator).log2
  let step := magnitude - 52
  word step (roundedQuotient scaled (denominator * Nat.pow 2 step))

/-- The word nearest to `significand * 10 ^ exponent`. -/
def nearest (significand : Nat) (exponent : Int) : Nat :=
  let size : Int := (Nat.toDigits 10 significand).length
  if significand = 0 || size + exponent < -330 then 0
  else if 310 < size + exponent then infinity
  else
    match exponent with
    | .ofNat power => nearestFraction (significand * Nat.pow 10 power) 1
    | .negSucc power => nearestFraction significand (Nat.pow 10 (power + 1))

end Offside.Literal.Binary64
