import Offside.Text.Unprintable

/-!
# Quoted text

Text shown inside a message stands between double quotes.  Quotes and
backslashes are escaped, the common control characters have short names, and
every other character that would not show is written by its number.
-/

namespace Offside.Text

def isUnprintable (char : Char) : Bool :=
  char.toNat < 32 || char.toNat = 127 ||
    (128 ≤ char.toNat && inRanges unprintableRanges char.toNat)

def hexadecimal (number : Nat) : List Char :=
  Nat.toDigits 16 number

def quoteChar (char : Char) : List Char :=
  if char = '"' then ['\\', '"']
  else if char = '\\' then ['\\', '\\']
  else if char = '\n' then ['\\', 'n']
  else if char = '\r' then ['\\', 'r']
  else if char = '\t' then ['\\', 't']
  else if char.toNat = 0 then ['\\', '0']
  else if isUnprintable char then
    ['\\', 'u', '\x7b'] ++ hexadecimal char.toNat ++ ['\x7d']
  else [char]

/-- The text between double quotes, with everything invisible escaped. -/
def quote (text : String) : String :=
  String.ofList ('"' :: text.toList.flatMap quoteChar ++ ['"'])

end Offside.Text
