/-!
# Punycode

A writing of any characters with the letters, digits and hyphens of ASCII. The characters of ASCII
come first, then a hyphen, then numbers that say where the others belong. A number counts how many
steps lie between one inserted character and the next, where a step moves on by one place, and
behind the last place to the next code point. Numbers have base 36 with the lowest digit first, and
a threshold for each digit, under which a digit is the last one.

* `Punycode.encode`: the writing of a text.
* `Punycode.decode?`: the text of a writing, if it is one.
-/

namespace ClientGen.Punycode

/-- The digit with a value: `a` to `z`, then `0` to `9`. -/
def digit (n : Nat) : Char := Char.ofNat (if n < 26 then 'a'.toNat + n else '0'.toNat + (n - 26))

/-- The value of a digit. -/
def value? (c : Char) : Option Nat :=
  if 'a' ≤ c ∧ c ≤ 'z' then some (c.toNat - 'a'.toNat)
  else if 'A' ≤ c ∧ c ≤ 'Z' then some (c.toNat - 'A'.toNat)
  else if '0' ≤ c ∧ c ≤ '9' then some (c.toNat - '0'.toNat + 26)
  else none

/-- The threshold of the digit at a place, counted from 0: between 1 and 26. -/
def threshold (bias place : Nat) : Nat := min 26 (max 1 (36 * (place + 1) - bias))

/-- The bias that a number brings for the next one, before what is left of it is added: a step for
each time that it is above 455 and divided by 35. -/
def settle (bias delta : Nat) : Nat :=
  if 455 < delta then settle (bias + 36) (delta / 35) else bias + 36 * delta / (delta + 38)
termination_by delta
decreasing_by exact Nat.div_lt_self (by omega) (by omega)

/-- The bias after a number, where `count` characters are in place. -/
def adapt (first : Bool) (delta count : Nat) : Nat :=
  let delta := delta / if first then 700 else 2
  settle 0 (delta + delta / count)

/-- Every threshold is at least one. -/
theorem threshold_pos (bias place : Nat) : 1 ≤ threshold bias place := by
  unfold threshold; omega

/-- The digits of a number, from the one at a place on. -/
def digits (bias place n : Nat) : List Char :=
  let t := threshold bias place
  if n < t then [digit n]
  else digit (t + (n - t) % (36 - t)) :: digits bias (place + 1) ((n - t) / (36 - t))
termination_by n
decreasing_by
  have ht := threshold_pos bias place
  have hdiv := Nat.div_le_self (n - threshold bias place) (36 - threshold bias place)
  omega

/-- A number at the beginning of some digits, and what comes after it. The digits are those from a
place on, where one has the weight `weight`. -/
def number? (bias : Nat) : Nat → Nat → List Char → Option (Nat × List Char)
  | _, _, [] => none
  | place, weight, c :: cs => do
    let d ← value? c
    if d < threshold bias place then return (d * weight, cs)
    else
      let (more, rest) ← number? bias (place + 1) (weight * (36 - threshold bias place)) cs
      return (d * weight + more, rest)

/-- A number takes at least a digit. -/
theorem length_lt_of_number? {bias : Nat} {cs : List Char} :
    ∀ {place weight n : Nat} {rest : List Char},
      number? bias place weight cs = some (n, rest) → rest.length < cs.length := by
  induction cs with
  | nil => intro place weight n rest h; simp [number?] at h
  | cons c cs ih =>
    intro place weight n rest h
    simp only [number?, Option.bind_eq_bind, Option.bind_eq_some_iff] at h
    obtain ⟨d, -, h⟩ := h
    -- The digit either ends the number, or the number goes on in the digits behind it.
    split at h
    · simp only [Option.pure_def, Option.some.injEq, Prod.mk.injEq] at h
      simp [← h.2]
    · simp only [Option.bind_eq_some_iff] at h
      obtain ⟨⟨more, rest'⟩, hmore, h⟩ := h
      simp only [Option.pure_def, Option.some.injEq, Prod.mk.injEq] at h
      have := ih hmore
      simp only [List.length_cons, ← h.2]
      omega

/-- Is the character one of ASCII? -/
def isBasic (c : Char) : Bool := c.toNat < 128

/-- The state of writing a text. -/
structure Encoder where
  /-- What is written so far, after the characters of ASCII. -/
  output : List Char := []
  /-- The steps since the last number. -/
  delta : Nat := 0
  /-- The bias of the next number. -/
  bias : Nat := 72
  /-- The number of characters in place. -/
  count : Nat

namespace Encoder

/-- Passes over a character of the text while the characters with code `code` are put in place; the
text has `basics` characters of ASCII. -/
def pass (basics code : Nat) (s : Encoder) (c : Char) : Encoder :=
  if c.toNat < code then { s with delta := s.delta + 1 }
  else if c.toNat = code then
    { output := s.output ++ digits s.bias 0 s.delta
      delta := 0
      bias := adapt (s.count = basics) s.delta (s.count + 1)
      count := s.count + 1 }
  else s

/-- Puts in place the characters with the codes given, from the lowest on; `code` is the first code
that has not been passed. -/
def insert (text : List Char) (basics : Nat) : List Nat → Nat → Encoder → Encoder
  | [], _, s => s
  | next :: codes, code, s =>
    let s := { s with delta := s.delta + (next - code) * (s.count + 1) }
    let s := text.foldl (pass basics next) s
    insert text basics codes (next + 1) { s with delta := s.delta + 1 }

end Encoder

/-- The writing of a text. -/
def encode (text : List Char) : List Char :=
  let basics := text.filter isBasic
  let codes := (((text.filter (!isBasic ·)).map Char.toNat).eraseDups).mergeSort
  let numbers := (Encoder.insert text basics.length codes 128 { count := basics.length }).output
  if basics.isEmpty then numbers else basics ++ '-' :: numbers

/-- The text that some numbers make of the characters in place: `code` is the code of the last
character inserted and `place` the place after it. -/
def insertAll (bias code place : Nat) (first : Bool) (text : List Char) (cs : List Char) :
    Option (List Char) :=
  match cs with
  | [] => some text
  | c :: rest =>
    match h : number? bias 0 1 (c :: rest) with
    | none => none
    | some (delta, after) =>
      let count := text.length + 1
      let code := code + (place + delta) / count
      let place := (place + delta) % count
      if code.isValidChar then
        insertAll (adapt first delta count) code (place + 1) false
          (text.insertIdx place (Char.ofNat code)) after
      else none
termination_by cs.length
decreasing_by exact length_lt_of_number? h

/-- The text of a writing. The last hyphen ends the characters of ASCII. -/
def decode? (cs : List Char) : Option (List Char) :=
  let numbers := (cs.reverse.takeWhile (· ≠ '-')).reverse
  insertAll 72 128 0 true (cs.take (cs.length - numbers.length - 1)) numbers

end ClientGen.Punycode
