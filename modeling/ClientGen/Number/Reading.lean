import ClientGen.Limit
import ClientGen.Number.Binary64
import ClientGen.Number.Hexadecimal
import ClientGen.Text.Blank
import ClientGen.Text.Letter

/-!
# Reading numbers

* `readInteger`: a whole number in decimal notation as a person may write it: blanks around it, a
  sign, digits of any script, and single underscores between digits. There is a limit to the
  number of digits.
* `BinaryBase`, `readIntegerTo`: the same to base 2, 8 or 16, without underscores, and possibly with
  the mark of its base in front.
* `readFraction`: a number with a point or an exponent, an infinity, or the value that is no number.
-/

namespace ClientGen

/-- Blanks around a number. The separators U+001C to U+001F are blank elsewhere but not here. -/
def isNumberBlank (c : Char) : Bool :=
  Text.isBlank c && !(0x1c ≤ c.toNat && c.toNat ≤ 0x1f)

/-- A text without the blanks around it, its sign, and what comes after the sign. -/
def signAndRest (cs : List Char) : Bool × List Char :=
  match Text.dropEnd isNumberBlank (cs.dropWhile isNumberBlank) with
  | '-' :: cs => (true, cs)
  | '+' :: cs => (false, cs)
  | cs => (false, cs)

/-- The number of some digits, continuing from `n`; single underscores may stand between digits. -/
def readDigits (n : Nat) : List Char → Option Nat
  | [] => some n
  | '_' :: c :: cs => do
    let d ← Text.digitValue c
    readDigits (n * 10 + d) cs
  | c :: cs => do
    let d ← Text.digitValue c
    readDigits (n * 10 + d) cs

/-- The number of digits that start with a digit and are not too many. -/
def readNatural : List Char → Option Nat
  | [] => none
  | c :: cs => do
    let d ← Text.digitValue c
    if Limit.digits < ((c :: cs).filter (· ≠ '_')).length then none else readDigits d cs

/-- A whole number with a sign that was read before. -/
def withSign (negative : Bool) (n : Nat) : Int := if negative then -n else n

/-- A whole number with an optional sign and blanks around it. -/
def readInteger (cs : List Char) : Option Int :=
  let (negative, digits) := signAndRest cs
  (readNatural digits).map (withSign negative)

/-- The bases that have a mark. -/
inductive BinaryBase where
  /-- Base 2. -/
  | binary
  /-- Base 8. -/
  | octal
  /-- Base 16. -/
  | hexadecimal
deriving DecidableEq, Repr

/-- The base as a number. -/
def BinaryBase.value : BinaryBase → Nat
  | .binary => 2
  | .octal => 8
  | .hexadecimal => 16

/-- The letter after the zero in the mark of a base. -/
def BinaryBase.letter : BinaryBase → Char
  | .binary => 'b'
  | .octal => 'o'
  | .hexadecimal => 'x'

/-- The digits without the mark of their base. -/
def BinaryBase.dropMark (base : BinaryBase) (cs : List Char) : List Char :=
  match cs with
  | '0' :: c :: rest => if c = base.letter || c = base.letter.toUpper then rest else cs
  | cs => cs

/-- The value of a digit: a letter of ASCII, or a decimal digit of any script. -/
def anyDigitValue (c : Char) : Option Nat := (Hexadecimal.value? c).or (Text.digitValue c)

/-- A whole number to a base, with an optional sign, an optional mark and blanks around it. There is
no limit to the number of digits. -/
def readIntegerTo (base : BinaryBase) (cs : List Char) : Option Int := do
  let (negative, digits) := signAndRest cs
  let values ← (base.dropMark digits).mapM fun c => (anyDigitValue c).filter (· < base.value)
  if values.isEmpty then none
  else some (withSign negative (values.foldl (fun n d => n * base.value + d) 0))

/-- The number of digits; none if there is something else. -/
def readAll (cs : List Char) : Option Nat :=
  cs.foldlM (fun n c => (Text.digitValue c).map (n * 10 + ·)) 0

/-- The exponent after a fraction: a letter, an optional sign and digits, or nothing. -/
def readExponent : List Char → Option Int
  | [] => some 0
  | e :: cs =>
    let (negative, digits) : Bool × List Char := match cs with
      | '-' :: cs => (true, cs)
      | '+' :: cs => (false, cs)
      | cs => (false, cs)
    if (e == 'e' || e == 'E') && !digits.isEmpty then (readAll digits).map (withSign negative)
    else none

/-- Is the character a decimal digit of any script? -/
def isAnyDigit (c : Char) : Bool := (Text.digitValue c).isSome

/-- A number without a sign: digits, possibly with a point among them, and possibly an exponent. -/
def readSize (negative : Bool) (cs : List Char) : Option Binary64 := do
  let whole := cs.takeWhile isAnyDigit
  let rest := cs.dropWhile isAnyDigit
  let (fraction, tail) : List Char × List Char := match rest with
    | '.' :: rest => (rest.takeWhile isAnyDigit, rest.dropWhile isAnyDigit)
    | rest => ([], rest)
  if whole.isEmpty && fraction.isEmpty then none
  else
    let digits ← readAll (whole ++ fraction)
    let exponent ← readExponent tail
    return .ofDecimal negative digits (exponent - fraction.length)

/-- A number with a point or an exponent or without, or a word for an infinity or for the value that
is no number; with an optional sign and blanks around it, and without underscores. -/
def readFraction (cs : List Char) : Option Binary64 :=
  let (negative, size) := signAndRest cs
  let word := (String.ofList size).toLower
  if word = "inf" || word = "infinity" then some (.infinite negative)
  else if word = "nan" then some .nan
  else readSize negative size

end ClientGen
