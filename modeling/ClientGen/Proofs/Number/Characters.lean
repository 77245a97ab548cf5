import Mathlib.Data.List.Basic
import ClientGen.Number.Hexadecimal
import ClientGen.Number.Shortest

/-!
# Characters of numbers

Numbers are written with few characters, so no number can hold a mark that means something to a
reader of generated code.

* `IsNumeralChar`: digits, signs, points and the mark of an exponent.
* `numeral_int`: the characters of whole numbers.
* `Binary64.mem_textWith`: those of all other numbers.
* `Hexadecimal.exists_of_mem_digits`: hexadecimal digits.
-/

namespace ClientGen

/-- A digit, a sign, a point or the mark of an exponent. -/
def IsNumeralChar (c : Char) : Prop := c.isDigit = true ∨ c ∈ ['-', '+', '.', 'e']

instance : DecidablePred IsNumeralChar := fun _ => instDecidableOr

/-- A text that may be part of a number. -/
def Numeral (cs : List Char) : Prop := ∀ c ∈ cs, IsNumeralChar c

instance : DecidablePred Numeral := fun cs => List.decidableBAll IsNumeralChar cs

/-- Texts that may be part of a number may be so together. -/
theorem Numeral.append {cs ds : List Char} (h : Numeral cs) (hds : Numeral ds) :
    Numeral (cs ++ ds) :=
  List.forall_mem_append.mpr ⟨h, hds⟩

/-- Digits may be part of a number. -/
theorem numeral_toDigits (n : Nat) : Numeral (Nat.toDigits 10 n) :=
  fun _ h => .inl (Nat.isDigit_of_mem_toDigits (by decide) (by decide) h)

theorem numeral_nat (n : Nat) : Numeral (toString n).toList := by
  rw [Nat.toString_eq_ofList_toDigits, String.toList_ofList]
  exact numeral_toDigits n

/-- A whole number may be part of a number. -/
theorem numeral_int (n : Int) : Numeral (toString n).toList := by
  cases n with
  | ofNat n => exact numeral_nat n
  | negSucc n =>
    have hsign : toString (Int.negSucc n) = "-" ++ toString (n + 1) := rfl
    rw [hsign, String.toList_append]
    exact Numeral.append (by decide) (numeral_nat (n + 1))

namespace Binary64

/-- The mark of an exponent with its number may be part of a number. -/
theorem numeral_exponentText (e : Int) : Numeral (exponentText e).toList := by
  have hdigits := numeral_nat e.natAbs
  rw [exponentText, String.toList_append]
  refine Numeral.append ?_ ?_
  · split <;> decide
  · split
    · rw [String.toList_append]
      exact Numeral.append (by decide) hdigits
    · exact hdigits

/-- A number with a point may be part of a number. -/
theorem numeral_decimalText (c : Nat) (g : Int) : Numeral (decimalText c g).toList := by
  have hdigits := numeral_toDigits c
  have hzeros : ∀ n, Numeral (List.replicate n '0') := fun n d h =>
    List.eq_of_mem_replicate h ▸ .inl rfl
  have hpoint : IsNumeralChar '.' := .inr (by decide)
  unfold decimalText
  dsimp only
  split
  · -- The form with an exponent; the mantissa has a point if there is more than one digit.
    rw [String.toList_append]
    refine Numeral.append ?_ (numeral_exponentText _)
    split
    · decide
    · rename_i d hd
      rw [String.toList_ofList, ← hd]
      exact hdigits
    · rename_i d ds _ hd
      rw [Numeral, hd, List.forall_mem_cons] at hdigits
      rw [String.toList_ofList]
      exact List.forall_mem_cons.mpr ⟨hdigits.1, List.forall_mem_cons.mpr ⟨hpoint, hdigits.2⟩⟩
  · -- The positional form, by where the point stands.
    split
    · rw [String.toList_append]
      refine Numeral.append (by decide) ?_
      rw [String.toList_ofList]
      exact (hzeros _).append hdigits
    · split
      · rw [String.toList_append, String.toList_ofList]
        exact (hdigits.append (hzeros _)).append (by decide)
      · -- The point stands among the digits.
        rw [String.toList_ofList]
        exact Numeral.append (fun d hd => hdigits d (List.mem_of_mem_take hd))
          (List.forall_mem_cons.mpr ⟨hpoint, fun d hd => hdigits d (List.mem_of_mem_drop hd)⟩)

/-- The text of a number holds characters of numbers and those of the words for what is no finite
number. -/
theorem mem_textWith {nanText infiniteText : String} {x : Binary64} {c : Char}
    (h : c ∈ (textWith nanText infiniteText x).toList) :
    IsNumeralChar c ∨ c ∈ nanText.toList ∨ c ∈ infiniteText.toList := by
  -- The three kinds of numbers have their own texts; only a finite one is in numerals.
  have hsign : ∀ negative : Bool, Numeral (if negative then "-" else "" : String).toList := by
    decide
  cases x with
  | nan => exact .inr (.inl h)
  | infinite negative =>
    rw [textWith, String.toList_append] at h
    rcases List.mem_append.mp h with h | h
    · exact .inl (hsign negative c h)
    · exact .inr (.inr h)
  | finite negative m q =>
    rw [textWith, String.toList_append] at h
    refine .inl ?_
    rcases List.mem_append.mp h with h | h
    · exact hsign negative c h
    · split at h
      · have hzero : Numeral "0.0".toList := by decide
        exact hzero c h
      · exact numeral_decimalText _ _ c h

end Binary64

/-- A number in hexadecimal is written with sixteen digits. -/
theorem Hexadecimal.exists_of_mem_digits {width n : Nat} {c : Char} (h : c ∈ digits width n) :
    ∃ k < 16, c = digit k := by
  induction width generalizing n with
  | zero => exact absurd h List.not_mem_nil
  | succ width ih =>
    rw [digits, List.mem_append, List.mem_singleton] at h
    rcases h with h | rfl
    · exact ih h
    · exact ⟨_, Nat.mod_lt _ (by decide), rfl⟩

end ClientGen
