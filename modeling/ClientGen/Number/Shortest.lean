import ClientGen.Number.Binary64

/-!
# Shortest decimal text of a binary fraction

The decimal with the fewest digits that reads back as the same value, and of those the one
nearest to it.

* `Binary64.shortest`: the digits and their decimal exponent, in exact arithmetic.
* `Binary64.text`: the written form. Values from 10^-4 up to 10^16 are positional and keep at
  least one digit after the point; all others have an exponent of at least two digits.
-/

namespace ClientGen.Binary64

/-- The four numbers that decide which decimals read back as `m · 2^q`, measured in units in which
the grid step `10^g` is `unit`: the value, and the interval of numbers that round to it. -/
structure Scaled where
  /-- The grid step. -/
  unit : Nat
  /-- The value. -/
  value : Nat
  /-- The lower end of the interval. -/
  low : Nat
  /-- The upper end of the interval. -/
  high : Nat
  /-- Do the ends round to the value as well? They do when the mantissa is even. -/
  closed : Bool

/-- The value `m · 2^q` against the grid of multiples of `10^g`. Below a power of two the
neighbour is half as far away as above it. -/
def scaled (m : Nat) (q g : Int) : Scaled :=
  let p := Nat.pow 2 (q - 2).toNat * Nat.pow 10 (-g).toNat
  let below := if m = Nat.pow 2 52 ∧ leastExponent < q then 1 else 2
  { unit := Nat.pow 2 (2 - q).toNat * Nat.pow 10 g.toNat
    value := 4 * m * p
    low := (4 * m - below) * p
    high := (4 * m + 2) * p
    closed := m % 2 = 0 }

/-- Does the `c`-th point of the grid read back as the value? -/
def Scaled.readsBack (s : Scaled) (c : Nat) : Bool :=
  let x := c * s.unit
  if s.closed then s.low ≤ x && x ≤ s.high else s.low < x && x < s.high

/-- The point of the grid that reads back, if one of the value's two neighbours does; of two the
nearer, and of two equally near the even one. -/
def Scaled.nearest? (s : Scaled) : Option Nat :=
  let c := s.value / s.unit
  match s.readsBack c, s.readsBack (c + 1) with
  | true, true =>
    let down := s.value - c * s.unit
    let up := (c + 1) * s.unit - s.value
    some (if down < up then c else if up < down then c + 1 else c + c % 2)
  | true, false => some c
  | false, true => some (c + 1)
  | false, false => none

/-- The greatest `e` with `10^e ≤ m · 2^q`, for a positive mantissa. -/
def decimalExponent (m : Nat) (q : Int) : Int :=
  let n := m * Nat.pow 2 q.toNat * Nat.pow 10 342 / Nat.pow 2 (-q).toNat
  ((Nat.toDigits 10 n).length : Int) - 343

/-- The digits on the first grid that has a point that reads back, among the grids with `17 - left`
digits and more. -/
def digitsOn (m : Nat) (q top : Int) : Nat → Nat × Int
  | 0 => let g := top - 16; (((scaled m q g).nearest?).getD 0, g)
  | left + 1 =>
    let g := top - (16 - (left + 1 : Nat))
    match (scaled m q g).nearest? with
    | some c => (c, g)
    | none => digitsOn m q top left

/-- A decimal without zeros at its end, for a number of at most `fuel` digits. -/
def dropZeros : Nat → Nat × Int → Nat × Int
  | 0, d => d
  | fuel + 1, (c, g) => if c % 10 = 0 then dropZeros fuel (c / 10, g + 1) else (c, g)

/-- The shortest decimal `c · 10^g` that reads back as the positive value `m · 2^q`. -/
def shortest (m : Nat) (q : Int) : Nat × Int :=
  dropZeros 18 (digitsOn m q (decimalExponent m q) 16)

/-- A decimal exponent with its sign and at least two digits. -/
def exponentText (e : Int) : String :=
  let digits := toString e.natAbs
  (if e < 0 then "e-" else "e+") ++ (if digits.length < 2 then "0" ++ digits else digits)

/-- The decimal `c · 10^g` in writing: positional from 10^-4 up to 10^16, else with an exponent. -/
def decimalText (c : Nat) (g : Int) : String :=
  let digits := Nat.toDigits 10 c
  let n : Int := digits.length
  let point := n + g
  if point < -3 ∨ 16 < point then
    let mantissa := match digits with
      | [] => ""
      | [d] => String.ofList [d]
      | d :: ds => String.ofList (d :: '.' :: ds)
    mantissa ++ exponentText (point - 1)
  else if point ≤ 0 then
    "0." ++ String.ofList (List.replicate (-point).toNat '0' ++ digits)
  else if n ≤ point then
    String.ofList (digits ++ List.replicate (point - n).toNat '0') ++ ".0"
  else
    String.ofList (digits.take point.toNat ++ '.' :: digits.drop point.toNat)

/-- The written form of a value, with the given words for the values that are no finite number. -/
def textWith (nanText infiniteText : String) : Binary64 → String
  | .nan => nanText
  | .infinite negative => (if negative then "-" else "") ++ infiniteText
  | .finite negative m q =>
    (if negative then "-" else "") ++
      if m = 0 then "0.0" else let (c, g) := shortest m q; decimalText c g

/-- The written form of a value as a literal of generated code. -/
def text : Binary64 → String := textWith "nan" "inf"

end ClientGen.Binary64
