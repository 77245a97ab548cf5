import Mathlib.Algebra.Group.Nat.Defs
import ClientGen.Number.Reading
import ClientGen.Proofs.Text.Ascii
import ClientGen.Proofs.Text.Lines

/-!
# Decimal notation

A whole number that is written in decimal notation is read back, if it does not have more digits
than numbers may have.

* `readDigits_eq`: the number of some digits.
* `readInteger_toDigits`: a number is read back from its digits.
-/

namespace ClientGen

/-- What holds of the digits of ASCII is decided by going through ASCII. -/
theorem of_isDigit {p : Char → Prop} (hall : ∀ n < 128, (Char.ofNat n).isDigit → p (Char.ofNat n))
    {c : Char} (h : c.isDigit) : p c := by
  refine Text.of_ascii (p := fun c => c.isDigit → p c) hall ?_ h
  simp only [Char.isDigit, Bool.and_eq_true, decide_eq_true_eq, UInt32.le_iff_toNat_le] at h
  exact Nat.lt_of_le_of_lt h.2 (by decide)

theorem digitValue_of_isDigit {c : Char} (h : c.isDigit) :
    Text.digitValue c = some (c.toNat - '0'.toNat) :=
  of_isDigit (p := fun c => Text.digitValue c = some (c.toNat - '0'.toNat)) (by decide +kernel) h

theorem ne_underscore_of_isDigit {c : Char} (h : c.isDigit) : c ≠ '_' := by
  rintro rfl
  exact absurd h (by decide)

/-- The number of some digits of ASCII. -/
theorem readDigits_eq {cs : List Char} (h : ∀ c ∈ cs, c.isDigit) (n : Nat) :
    readDigits n cs = some (Nat.ofDigitChars 10 cs n) := by
  induction cs generalizing n with
  | nil => rw [readDigits, Nat.ofDigitChars_nil]
  | cons c cs ih =>
    obtain ⟨hc, hcs⟩ := List.forall_mem_cons.mp h
    have hstep : readDigits n (c :: cs)
        = (Text.digitValue c).bind fun d => readDigits (n * 10 + d) cs := by
      rw [readDigits]
      · rfl
      · exact fun _ _ heq => absurd heq (ne_underscore_of_isDigit hc)
    rw [hstep, digitValue_of_isDigit hc, Option.bind_some, ih hcs, Nat.ofDigitChars_cons,
      Nat.mul_comm]

/-- Digits have no blanks around them and no sign. -/
theorem signAndRest_eq {cs : List Char} (h : ∀ c ∈ cs, c.isDigit) :
    signAndRest cs = (false, cs) := by
  have hblank : ∀ c ∈ cs, ¬ isNumberBlank c := fun c hc =>
    of_isDigit (p := fun c => ¬ isNumberBlank c) (by decide +kernel) (h c hc)
  have hfront : cs.dropWhile isNumberBlank = cs := by
    cases cs with
    | nil => rfl
    | cons c cs => exact List.dropWhile_cons_of_neg (hblank c List.mem_cons_self)
  have hend : Text.dropEnd isNumberBlank cs = cs :=
    Text.dropEnd_of_getLast? fun c hc => hblank c (List.mem_of_getLast? hc)
  rw [signAndRest, hfront, hend]
  split
  · exact absurd (h '-' List.mem_cons_self) (by decide)
  · exact absurd (h '+' List.mem_cons_self) (by decide)
  · rfl

/-- A number is read back from its digits, if there are not too many. -/
theorem readInteger_toDigits {n : Nat} (h : n < 10 ^ Limit.digits) :
    readInteger (Nat.toDigits 10 n) = some (n : Int) := by
  have hdigits : ∀ c ∈ Nat.toDigits 10 n, c.isDigit := fun c hc =>
    Nat.isDigit_of_mem_toDigits (by decide) (by decide) hc
  have hlength : (Nat.toDigits 10 n).length ≤ Limit.digits :=
    (Nat.length_toDigits_le_iff (by decide) (by decide)).mpr h
  have hvalue : Nat.ofDigitChars 10 (Nat.toDigits 10 n) 0 = n := Nat.ofDigitChars_ten_toDigits
  obtain ⟨c, cs, hcs⟩ := List.exists_cons_of_ne_nil (Nat.toDigits_ne_nil (n := n) (b := 10))
  -- Digits alone have no sign, no blanks and no underscores to be dropped.
  rw [readInteger, signAndRest_eq hdigits]
  rw [hcs] at hdigits hlength hvalue ⊢
  obtain ⟨hc, hrest⟩ := List.forall_mem_cons.mp hdigits
  have hall : (c :: cs).filter (· ≠ '_') = c :: cs :=
    List.filter_eq_self.mpr fun d hd => by simpa using ne_underscore_of_isDigit (hdigits d hd)
  have hnatural : readNatural (c :: cs) = some n := by
    rw [Nat.ofDigitChars_cons, Nat.mul_zero, Nat.zero_add] at hvalue
    simp only [readNatural, hall, digitValue_of_isDigit hc]
    change (if Limit.digits < (c :: cs).length then none
      else readDigits (c.toNat - '0'.toNat) cs) = some n
    rw [if_neg (Nat.not_lt.mpr hlength), readDigits_eq hrest, hvalue]
  change (readNatural (c :: cs)).map (withSign false) = some (n : Int)
  rw [hnatural]
  rfl

end ClientGen
