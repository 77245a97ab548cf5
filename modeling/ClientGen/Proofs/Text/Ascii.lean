import ClientGen.Text.Blank
import ClientGen.Text.Letter

/-!
# Characters of ASCII

* `Text.of_ascii`: what holds of all characters of ASCII is decided by going through them.
* `Text.toNat_lt_of_isAsciiAlphanumeric`, `Text.isWordChar_of_alphanumeric`,
  `Text.not_isBlank_of_isAsciiAlphanumeric`: letters and digits.
-/

namespace ClientGen.Text

variable {c : Char}

/-- A property of the characters of ASCII holds of each of them. -/
theorem of_ascii {p : Char → Prop} (hall : ∀ n < 128, p (Char.ofNat n)) (h : c.toNat < 128) :
    p c := by
  have hc := hall c.toNat h
  rwa [Char.ofNat_toNat] at hc

theorem toNat_lt_of_isAsciiAlphanumeric (h : isAsciiAlphanumeric c) : c.toNat < 128 := by
  simp only [isAsciiAlphanumeric, isAsciiUpper, isAsciiLower, isAsciiDigit, Bool.or_eq_true,
    Bool.and_eq_true, decide_eq_true_eq, Char.le_def, UInt32.le_iff_toNat_le] at h
  have hz : 'z'.val.toNat = 122 := rfl
  have hZ : 'Z'.val.toNat = 90 := rfl
  have h9 : '9'.val.toNat = 57 := rfl
  have hc : c.toNat = c.val.toNat := rfl
  omega

/-- Letters, digits and the underscore are parts of words. -/
theorem isWordChar_of_alphanumeric (h : isAsciiAlphanumeric c || c == '_') : isWordChar c := by
  by_cases hc : c.toNat < 128
  · rw [isWordChar, if_pos hc]
    exact h
  · rcases Bool.or_eq_true_iff.mp h with h | h
    · exact absurd (toNat_lt_of_isAsciiAlphanumeric h) hc
    · obtain rfl : c = '_' := by simpa using h
      exact absurd (by decide) hc

/-- No letter and no digit is a blank. -/
theorem not_isBlank_of_isAsciiAlphanumeric (h : isAsciiAlphanumeric c) : ¬ isBlank c := by
  have hall : ∀ n < 128, isAsciiAlphanumeric (Char.ofNat n) → ¬ isBlank (Char.ofNat n) := by
    decide +kernel
  exact of_ascii (p := fun c => isAsciiAlphanumeric c → ¬ isBlank c) hall
    (toNat_lt_of_isAsciiAlphanumeric h) h

end ClientGen.Text
