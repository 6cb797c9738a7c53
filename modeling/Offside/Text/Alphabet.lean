import Offside.Text.Letters
import Offside.Text.Signs

/-!
# The alphabet of the language

The classes of characters that decide where a token starts and how far it
reaches.  Each class has an ASCII part, spelled out here, and a part beyond
ASCII, taken from the tables.
-/

namespace Offside.Text

/-- Blanks other than the end of line: space, tab, carriage return, form feed. -/
def isBlank (char : Char) : Bool :=
  char = ' ' || char = '\t' || char = '\r' || char = '\x0c'

def isAsciiUpper (char : Char) : Bool :=
  'A' ≤ char && char ≤ 'Z'

def isAsciiLower (char : Char) : Bool :=
  'a' ≤ char && char ≤ 'z'

def isAsciiLetter (char : Char) : Bool :=
  isAsciiLower char || isAsciiUpper char

def isDigit (char : Char) : Bool :=
  '0' ≤ char && char ≤ '9'

def isOctalDigit (char : Char) : Bool :=
  '0' ≤ char && char ≤ '7'

def isHexDigit (char : Char) : Bool :=
  isDigit char || ('a' ≤ char && char ≤ 'f') || ('A' ≤ char && char ≤ 'F')

def isWide (char : Char) : Bool :=
  128 ≤ char.toNat

def isCapital (char : Char) : Bool :=
  isAsciiUpper char || (isWide char && inStrides capitalRanges char.toNat)

/--
Small and caseless letters: they start identifiers.  A letter that is no
capital qualifies unless it is a titlecase digraph or a modifier.
-/
def isSmall (char : Char) : Bool :=
  isAsciiLower char ||
    (isWide char && inRanges letterRanges char.toNat &&
      !inStrides capitalRanges char.toNat && !inRanges modifierRanges char.toNat)

def isNameChar (char : Char) : Bool :=
  isAsciiLetter char || isDigit char || char = '_' || char = '\'' ||
    (isWide char && inRanges letterRanges char.toNat)

/--
Characters beyond ASCII that cannot be told from every letter by the first byte
of their encoding: that byte starts the encoding of some letter too.
-/
def leadsLikeLetter (char : Char) : Bool :=
  isWide char && meetsRanges letterRanges (leadBlock char.toNat)

/-- Characters that continue the name of a hole, which is plain ASCII. -/
def isHoleChar (char : Char) : Bool :=
  isAsciiLetter char || isDigit char || char = '_' || char = '\''

def asciiSigns : List Char :=
  ['!', '#', '$', '%', '&', '*', '+', '.', '/', '<', '=', '>', '?', '@', '\\', '^', '|', '~',
    ':', '-']

def isSign (char : Char) : Bool :=
  asciiSigns.contains char || (isWide char && inRanges signRanges char.toNat)

/--
Characters with the property `Uppercase`: capital letters, and the numerals
and enclosed capitals that are no letters.
-/
def isUppercase (char : Char) : Bool :=
  isCapital char || (isWide char && inRanges capitalMarkRanges char.toNat)

end Offside.Text
