import ClientGen.Number.Arithmetic
import ClientGen.Number.Reading
import ClientGen.Text.Case
import ClientGen.Text.Lines
import ClientGen.Yaml.Fault

/-!
# Numbers in YAML

Whole numbers to four bases and to base sixty, and fractions. A spelling announces a number; what it
stands for is read by rules that are wider than those for the announcement, because a type can
announce a number as well.

* `announcesInteger`, `announcesFraction`: does a spelling announce a number?
* `integerOf`, `fractionOf`: the number that a spelling stands for.
-/

namespace ClientGen.Yaml

/-- A decimal digit or an underscore, which is passed over in numbers. -/
def isDigitOrLine (c : Char) : Bool := Text.isAsciiDigit c || c == '_'

/-- Digits that start with a digit, with underscores among them. -/
def isDigits (cs : List Char) : Bool := cs.head?.any Text.isAsciiDigit && cs.all isDigitOrLine

/-- A sign and what it stands before. -/
def signed : List Char → Bool × List Char
  | '-' :: cs => (true, cs)
  | '+' :: cs => (false, cs)
  | cs => (false, cs)

/-- Is this a digit of a number to base sixty, after the first one? -/
def isSixtieth : List Char → Bool
  | [c] => Text.isAsciiDigit c
  | [c, d] => '0' ≤ c && c ≤ '5' && Text.isAsciiDigit d
  | _ => false

/-- Does a text consist of digits of a class and underscores, at least one of them? -/
def consistsOf (isDigit : Char → Bool) (cs : List Char) : Bool :=
  !cs.isEmpty && cs.all fun c => isDigit c || c == '_'

/-- Does a spelling announce a whole number? -/
def announcesInteger (cs : List Char) : Bool :=
  match (signed cs).2 with
  | ['0'] => true
  | '0' :: 'b' :: digits => consistsOf (fun c => c == '0' || c == '1') digits
  | '0' :: 'x' :: digits => consistsOf (fun c => (Hexadecimal.value? c).isSome) digits
  | '0' :: digits => consistsOf (fun c => '0' ≤ c && c ≤ '7') digits
  | digits =>
    match Text.splitOn ':' digits with
    | first :: rest => isDigits first && rest.all isSixtieth
    | [] => false

/-- Is this the exponent at the end of a fraction, or nothing? It has a sign. -/
def announcesExponent : List Char → Bool
  | [] => true
  | e :: sign :: digits =>
    (e == 'e' || e == 'E') && (sign == '+' || sign == '-') && !digits.isEmpty
      && digits.all Text.isAsciiDigit
  | _ => false

/-- Does a spelling announce a fraction? A point alone cannot have a sign before it, unless a word
for an infinity follows. -/
def announcesFraction (cs : List Char) : Bool :=
  let size := (signed cs).2
  let whole := size.takeWhile (· ≠ '.')
  match size.dropWhile (· ≠ '.') with
  | '.' :: after =>
    let tail := after.dropWhile isDigitOrLine
    match Text.splitOn ':' whole with
    | [[]] =>
      let bare := size.length = cs.length
      ["inf", "Inf", "INF"].contains (String.ofList after)
        || (bare && ["nan", "NaN", "NAN"].contains (String.ofList after))
        || (bare && after.head?.any Text.isAsciiDigit && announcesExponent tail)
    | [digits] => isDigits digits && announcesExponent tail
    | first :: rest => isDigits first && rest.all isSixtieth && tail.isEmpty
    | [] => false
  | _ => false

/-- A number that was read, or else a fault. -/
def orNoNumber {α : Type} : Option α → Except Fault α
  | some a => .ok a
  | none => .error .number

/-- The spelling of a number without underscores, taken apart at its sign. -/
def number (cs : List Char) : Except Fault (Bool × List Char) :=
  let cs := cs.filter (· ≠ '_')
  if cs.isEmpty then .error .emptyNumber else .ok (signed cs)

/-- The whole number that a spelling without a sign stands for. -/
def wholeSizeOf (cs : List Char) : Except Fault Int :=
  match cs with
  | [] => .error .emptyNumber
  | ['0'] => .ok 0
  | '0' :: 'b' :: digits => orNoNumber (readIntegerTo .binary digits)
  | '0' :: 'x' :: digits => orNoNumber (readIntegerTo .hexadecimal digits)
  | '0' :: _ => orNoNumber (readIntegerTo .octal cs)
  | cs => do
    let digits ← orNoNumber ((Text.splitOn ':' cs).mapM readInteger)
    return digits.foldl (fun n d => 60 * n + d) 0

/-- The whole number that a spelling stands for. -/
def integerOf (cs : List Char) : Except Fault Int := do
  let (negative, size) ← number cs
  let n ← wholeSizeOf size
  return if negative then -n else n

/-- The sum of some digits to base sixty, from the last one on, where one has the weight `weight`.
Every step is rounded. -/
def sumOfSixtieths (sum : Binary64) (weight : Nat) : List Binary64 → Except Fault Binary64
  | [] => .ok sum
  | d :: ds =>
    match Binary64.ofNat? weight with
    | some w => sumOfSixtieths (.add sum (.mul d w)) (weight * 60) ds
    | none => .error .tooLarge

/-- The fraction that a spelling without a sign stands for. -/
def fractionSizeOf (cs : List Char) : Except Fault Binary64 :=
  if cs = ".inf".toList then .ok (.infinite false)
  else if cs = ".nan".toList then .ok .nan
  else if cs.contains ':' then do
    let digits ← orNoNumber ((Text.splitOn ':' cs).mapM readFraction)
    sumOfSixtieths (.zero false) 1 digits.reverse
  else orNoNumber (readFraction cs)

/-- The fraction that a spelling stands for. -/
def fractionOf (cs : List Char) : Except Fault Binary64 := do
  let (negative, size) ← number (Text.lower cs)
  let x ← fractionSizeOf size
  return if negative then x.negate else x

end ClientGen.Yaml
