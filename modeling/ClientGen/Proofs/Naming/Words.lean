import ClientGen.Naming.Names
import ClientGen.Proofs.Text.Ascii

/-!
# Words and lengths

A name in Pascal case keeps the ASCII letters and digits of the name that it comes from, up to their
case, and nothing else.

* `Naming.flatten_words`: the words of a text hold its ASCII letters and digits, in order.
* `Naming.length_pascalCase`: a name in Pascal case is as long as there are ASCII letters and
  digits in the name.
-/

namespace ClientGen

namespace Text

variable {c : Char}

/-- An ASCII character stands for itself or for its counterpart at the beginning of a word. -/
theorem length_titleChar (h : c.toNat < 128) : (titleChar c).length = 1 := by
  have hall : ∀ n < 128, (titleChar (Char.ofNat n)).length = 1 := by decide +kernel
  exact of_ascii (p := fun c => (titleChar c).length = 1) hall h

/-- A character of ASCII has one small letter. -/
theorem length_lowerChar (h : c.toNat < 128) : (lowerChar c).length = 1 := by
  rw [lowerChar, if_pos h]
  rfl

/-- A text of ASCII is as long in small letters. -/
theorem length_lowerAfter {before cs : List Char} (h : ∀ c ∈ cs, c.toNat < 128) :
    (lowerAfter before cs).length = cs.length := by
  induction cs generalizing before with
  | nil => rfl
  | cons c cs ih =>
    have hc := h c List.mem_cons_self
    rw [lowerAfter, List.length_append, ih fun d hd => h d (List.mem_cons_of_mem _ hd)]
    split
    · simp
      omega
    · rw [length_lowerChar hc, List.length_cons]
      omega

/-- A word of ASCII characters keeps its length. -/
theorem length_properCase {cs : List Char} (h : ∀ c ∈ cs, c.toNat < 128) :
    (properCase cs).length = cs.length := by
  cases cs with
  | nil => rfl
  | cons c cs =>
    rw [properCase, List.length_append, length_titleChar (h c List.mem_cons_self),
      length_lowerAfter fun d hd => h d (List.mem_cons_of_mem _ hd), List.length_cons]
    omega

theorem flatten_consFirst (c : Char) (ws : List (List Char)) :
    (consFirst c ws).flatten = c :: ws.flatten := by
  cases ws <;> rfl

end Text

namespace Naming

open Text

/-- No word of a name is empty. -/
theorem ne_nil_of_mem_words {cs w : List Char} (h : w ∈ words cs) : w ≠ [] := by
  -- A character put in front of the first word makes no word empty.
  have hfirst : ∀ (c : Char) (ws : List (List Char)), (∀ w ∈ ws, w ≠ []) →
      ∀ w ∈ consFirst c ws, w ≠ [] := by
    intro c ws hws
    cases ws with
    | nil => simp [consFirst]
    | cons w ws =>
      refine List.forall_mem_cons.mpr ⟨List.cons_ne_nil _ _, ?_⟩
      exact (List.forall_mem_cons.mp hws).2
  have hall : ∀ w ∈ words cs, w ≠ [] := by
    clear h
    induction cs with
    | nil => simp [words]
    | cons c cs ih =>
      rw [words.eq_def]
      dsimp only
      split
      · cases cs with
        | nil => simp
        | cons d rest =>
          dsimp only
          split
          · exact hfirst c _ ih
          · exact List.forall_mem_cons.mpr ⟨List.cons_ne_nil _ _, ih⟩
      · exact ih
  exact hall w h

/-- The words of a text hold its ASCII letters and digits, in order. -/
theorem flatten_words (cs : List Char) :
    (words cs).flatten = cs.filter isAsciiAlphanumeric := by
  induction cs with
  | nil => rfl
  | cons c cs ih =>
    rw [words.eq_def]
    dsimp only
    by_cases hc : isAsciiAlphanumeric c
    · -- The letter opens a word of its own or stands at the head of the next one.
      rw [if_pos hc, List.filter_cons_of_pos hc, ← ih]
      cases cs with
      | nil => rfl
      | cons d rest =>
        dsimp only
        split
        · exact flatten_consFirst c _
        · rfl
    · rw [if_neg hc, List.filter_cons_of_neg hc, ih]

/-- A name in Pascal case is its words, each in its proper case. -/
theorem toList_pascalCase (name : String) :
    (pascalCase name).toList = (words name.toList).flatMap properCase := by
  rw [pascalCase, String.toList_join, splitWords, List.map_map, List.flatMap_map]
  simp [capitalizeWord]

/-- A name in Pascal case is as long as there are ASCII letters and digits in the name. -/
theorem length_pascalCase (name : String) :
    (pascalCase name).length = (name.toList.filter isAsciiAlphanumeric).length := by
  -- Only characters outside ASCII may change their number with their case.
  have hword : ∀ w ∈ words name.toList, (properCase w).length = w.length := by
    intro w hw
    refine length_properCase fun c hc => toNat_lt_of_isAsciiAlphanumeric ?_
    have hmem : c ∈ (words name.toList).flatten := List.mem_flatten.mpr ⟨w, hw, hc⟩
    rw [flatten_words] at hmem
    exact (List.mem_filter.mp hmem).2
  rw [← String.length_toList, toList_pascalCase, List.length_flatMap, ← flatten_words,
    List.length_flatten, List.map_congr_left hword]

/-- More letters make a longer name. -/
theorem length_interfaceName_append (base more : String) :
    (interfaceName (base ++ more) "").length
      = (interfaceName base "").length + (more.toList.filter isAsciiAlphanumeric).length := by
  simp only [interfaceName, String.length_append, length_pascalCase, String.toList_append,
    List.filter_append, List.length_append]
  omega

end Naming

end ClientGen
