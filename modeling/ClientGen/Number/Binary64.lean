/-!
# Binary fractions of double precision

The numbers of a document that carry a fraction or an exponent, as exact values `m · 2^q` with at
most 53 binary digits.

* `Binary64`: finite numbers, the two infinities and the value that is no number.
* `Binary64.ofRatio`: a ratio rounded to the nearest such value, a half to the even neighbour.
* `Binary64.ofDecimal`: a decimal with an exponent, rounded the same way.
* `Binary64.isZero`, `Binary64.toInt?`: comparison with whole numbers.
-/

namespace ClientGen

/-- A value of double precision. -/
inductive Binary64 where
  /-- The value that is no number. -/
  | nan
  /-- An infinity and its sign. -/
  | infinite (negative : Bool)
  /-- The number `± mantissa · 2^exponent`. The mantissa has at most 53 binary digits, exactly 53
  unless the exponent is the least one, -1074. -/
  | finite (negative : Bool) (mantissa : Nat) (exponent : Int)
deriving DecidableEq, Repr

namespace Binary64

/-- The least exponent: that of the subnormal numbers and of zero. -/
def leastExponent : Int := -1074

/-- The greatest exponent of a finite number. -/
def greatestExponent : Int := 971

/-- Zero with a sign. -/
def zero (negative : Bool) : Binary64 := .finite negative 0 leastExponent

/-- A ratio rounded to the nearest whole number; a half goes to the even neighbour. -/
def roundDiv (num den : Nat) : Nat :=
  let q := num / den
  let twice := 2 * (num % den)
  if twice < den then q else if den < twice then q + 1 else q + q % 2

/-- The greatest `e` with `2^e ≤ num / den`, for a positive numerator and denominator. -/
def binaryExponent (num den : Nat) : Int :=
  let e : Int := (num.log2 : Int) - (den.log2 : Int)
  if num * Nat.pow 2 (-e).toNat < den * Nat.pow 2 e.toNat then e - 1 else e

/-- The value nearest to the ratio of two numbers, a half going to the even mantissa. Ratios
beyond the greatest finite value become infinite. -/
def ofRatio (negative : Bool) (num den : Nat) : Binary64 :=
  if num = 0 then zero negative
  else
    let q := max (binaryExponent num den - 52) leastExponent
    let m := roundDiv (num * Nat.pow 2 (-q).toNat) (den * Nat.pow 2 q.toNat)
    let (m, q) := if m = Nat.pow 2 53 then (Nat.pow 2 52, q + 1) else (m, q)
    if greatestExponent < q then .infinite negative else .finite negative m q

/-- The value nearest to `digits · 10^exponent`. Exponents far outside the range of finite values
are decided without computing the power. -/
def ofDecimal (negative : Bool) (digits : Nat) (exponent : Int) : Binary64 :=
  if digits = 0 then zero negative
  else
    let magnitude : Int := exponent + (Nat.toDigits 10 digits).length
    if 400 < magnitude then .infinite negative
    else if magnitude < -400 then zero negative
    else ofRatio negative (digits * Nat.pow 10 exponent.toNat) (Nat.pow 10 (-exponent).toNat)

/-- Is the value one of the two zeros? -/
def isZero : Binary64 → Bool
  | .finite _ m _ => m = 0
  | _ => false

/-- The whole number that the value equals, if there is one. Both zeros equal 0. -/
def toInt? : Binary64 → Option Int
  | .finite negative m q =>
    let num := m * Nat.pow 2 q.toNat
    let den := Nat.pow 2 (-q).toNat
    if num % den = 0 then
      let n : Int := num / den
      some (if negative then -n else n)
    else none
  | _ => none

end Binary64

end ClientGen
