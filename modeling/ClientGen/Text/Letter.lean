import ClientGen.Text.LetterTable

/-!
# Character classes

* `isAsciiUpper`, `isAsciiLower`, `isAsciiDigit`, `isAsciiAlphanumeric`: the letters and digits
  that generated names are made of.
* `isWordChar`: letters and numbers of any script and the underscore. A name ends where a
  character outside this class follows.
* `digitValue`: the value of a decimal digit of any script.
* `isPrintable`: can the character be shown as it is?
-/

namespace ClientGen.Text

/-- The letters `A` to `Z`. -/
def isAsciiUpper (c : Char) : Bool := 'A' ≤ c && c ≤ 'Z'

/-- The letters `a` to `z`. -/
def isAsciiLower (c : Char) : Bool := 'a' ≤ c && c ≤ 'z'

/-- The digits `0` to `9`. -/
def isAsciiDigit (c : Char) : Bool := '0' ≤ c && c ≤ '9'

/-- Letters and digits of ASCII. -/
def isAsciiAlphanumeric (c : Char) : Bool := isAsciiUpper c || isAsciiLower c || isAsciiDigit c

/-- Letters and numbers of any script, and the underscore. -/
def isWordChar (c : Char) : Bool :=
  if c.toNat < 128 then isAsciiAlphanumeric c || c == '_' else inRanges letterRanges c.toNat

/-- The value of a decimal digit of any script. -/
def digitValue (c : Char) : Option Nat :=
  if c.toNat < 128 then if isAsciiDigit c then some (c.toNat - '0'.toNat) else none
  else (decimalRanges.find? fun r => r.1 ≤ c.toNat && c.toNat ≤ r.2).map fun r =>
    (c.toNat - r.1) % 10

/-- Can the character be shown as it is? Of the blanks, only the ASCII space can. -/
def isPrintable (c : Char) : Bool :=
  if c.toNat < 128 then 0x20 ≤ c.toNat && c.toNat < 0x7f else inRanges printableRanges c.toNat

end ClientGen.Text
