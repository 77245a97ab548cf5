import ClientGen.Number.Binary64

/-!
# Arithmetic with binary fractions

Sums and products of `Binary64`, computed exactly and rounded once.

* `Binary64.negate`, `Binary64.add`, `Binary64.mul`.
* `Binary64.ofNat?`: a whole number, unless it is too large for a finite value.
-/

namespace ClientGen.Binary64

/-- Is there a minus sign? -/
def isNegative : Binary64 → Bool
  | .nan => false
  | .infinite negative => negative
  | .finite negative _ _ => negative

/-- The value with the other sign. -/
def negate : Binary64 → Binary64
  | .nan => .nan
  | .infinite negative => .infinite !negative
  | .finite negative m q => .finite (!negative) m q

/-- The size of a finite value as a ratio. -/
def ratio : Binary64 → Nat × Nat
  | .finite _ m q => (m * Nat.pow 2 q.toNat, Nat.pow 2 (-q).toNat)
  | _ => (0, 1)

/-- The sum of two finite values. Zeros of different signs add up to the positive zero. -/
def addFinite (a b : Binary64) : Binary64 :=
  let signed (x : Binary64) (n : Nat) : Int := if x.isNegative then -n else n
  let (n, d) := a.ratio
  let (n', d') := b.ratio
  let sum := signed a (n * d') + signed b (n' * d)
  if sum = 0 then zero (a.isNegative && b.isNegative) else ofRatio (sum < 0) sum.natAbs (d * d')

/-- The sum of two values, rounded to the nearest value. -/
def add : Binary64 → Binary64 → Binary64
  | .nan, _ | _, .nan => .nan
  | .infinite a, .infinite b => if a = b then .infinite a else .nan
  | .infinite a, _ | _, .infinite a => .infinite a
  | a, b => addFinite a b

/-- The product of two values, rounded to the nearest value. -/
def mul (a b : Binary64) : Binary64 :=
  let negative := a.isNegative != b.isNegative
  match a, b with
  | .nan, _ | _, .nan => .nan
  | .infinite _, .infinite _ => .infinite negative
  | .infinite _, x | x, .infinite _ => if x.isZero then .nan else .infinite negative
  | a, b =>
    let (n, d) := a.ratio
    let (n', d') := b.ratio
    ofRatio negative (n * n') (d * d')

/-- A whole number rounded to the nearest value; none if that is not finite. -/
def ofNat? (n : Nat) : Option Binary64 :=
  match ofRatio false n 1 with
  | .finite negative m q => some (.finite negative m q)
  | _ => none

end ClientGen.Binary64
