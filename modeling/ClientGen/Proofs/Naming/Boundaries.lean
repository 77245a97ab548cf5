import ClientGen.Proofs.Naming.Recasing
import ClientGen.Proofs.Text.Lines

/-!
# Word boundaries

Whether two neighbours belong to one word depends on them and on what comes next, and on nothing
farther away. So a text can be cut at any separator and each side has its own words, and a word
that is cut out of a text is left whole.

* `Naming.belongs`: whether a character belongs to the word of the one in front of it.
* `Naming.words_append_separator`: the words on both sides of a separator.
* `Naming.words_of_mem_words`: a word is its own only word.
* `Naming.words_joined`: words with separators between them are cut apart again.
* `Naming.splitWords_intercalate`: so words that are joined by spaces are found again.
-/

namespace ClientGen.Naming

open Text

variable {a b c d : Char} {cs rest w : List Char} {next next' : Option Char}
  {ws : List (List Char)}

/-! ## One step -/

/-- Does a character belong to the word of the letter or digit in front of it? -/
def belongs (a b : Char) (next : Option Char) : Bool :=
  isAsciiAlphanumeric b && !breaksBetween a b next

/-- Of what comes next, all that counts is whether it is a small letter. -/
theorem belongs_congr (h : next.any isAsciiLower = next'.any isAsciiLower) :
    belongs a b next = belongs a b next' := by
  simp only [belongs, breaksBetween, h]

/-- What belongs to a word in a text still does at the end of the text. -/
theorem belongs_none (h : belongs a b next) : belongs a b none := by
  rw [belongs, Bool.and_eq_true, Bool.not_eq_true'] at h ⊢
  refine ⟨h.1, ?_⟩
  have hjoined := h.2
  unfold breaksBetween at hjoined ⊢
  split at hjoined
  · rename_i hupper
    rw [if_pos hupper, (Bool.or_eq_false_iff.mp hjoined).1]
    rfl
  · rename_i hupper
    rw [if_neg hupper, hjoined]

theorem words_nil : words [] = [] := rfl

/-- A separator is no part of a word. -/
theorem words_separator (h : isAsciiAlphanumeric c = false) (cs : List Char) :
    words (c :: cs) = words cs := by
  rw [words.eq_def]
  simp [h]

theorem words_singleton (h : isAsciiAlphanumeric c) : words [c] = [[c]] := by
  rw [words.eq_def]
  simp [h]

/-- A letter or digit opens the word that its neighbour belongs to, or is a word of its own. -/
theorem words_cons_cons (h : isAsciiAlphanumeric c) (d : Char) (rest : List Char) :
    words (c :: d :: rest) = if belongs c d rest.head? then consFirst c (words (d :: rest))
      else [c] :: words (d :: rest) := by
  rw [words.eq_def]
  exact if_pos h

/-! ## Texts in parts -/

/-- The words on both sides of a separator are those of the text. -/
theorem words_append_separator (h : isAsciiAlphanumeric c = false) (front rest : List Char) :
    words (front ++ c :: rest) = words front ++ words rest := by
  induction front with
  | nil => exact words_separator h rest
  | cons a front ih =>
    by_cases ha : isAsciiAlphanumeric a
    · cases front with
      | nil =>
        have hcut : belongs a c rest.head? = false := by rw [belongs, h, Bool.false_and]
        rw [List.singleton_append, words_cons_cons ha, hcut, words_separator h,
          words_singleton ha]
        rfl
      | cons b front =>
        -- The separator is no small letter, so it counts as little as the end of the text.
        have hnext : belongs a b (front ++ c :: rest).head? = belongs a b front.head? := by
          have hlower : isAsciiLower c = false := by
            rw [isAsciiAlphanumeric, Bool.or_eq_false_iff, Bool.or_eq_false_iff] at h
            exact h.1.2
          refine belongs_congr ?_
          cases front with
          | nil => simp [hlower]
          | cons => rfl
        rw [List.cons_append] at ih
        rw [List.cons_append, List.cons_append, words_cons_cons ha, words_cons_cons ha, hnext, ih]
        split
        · rename_i hbelongs
          obtain ⟨v, vs, hv⟩ := exists_words_cons (Bool.and_eq_true_iff.mp hbelongs).1 front
          rw [hv]
          rfl
        · rfl
    · rw [Bool.not_eq_true] at ha
      rw [List.cons_append, words_separator ha, words_separator ha, ih]

/-- Behind its first character, the first word goes on as the text does, or ends. -/
theorem head?_of_words_cons (hc : isAsciiAlphanumeric c) (h : words (c :: cs) = (c :: w) :: ws) :
    w.head? = none ∨ w.head? = cs.head? := by
  cases cs with
  | nil =>
    rw [words_singleton hc] at h
    obtain rfl : [] = w := by simpa using (List.cons.inj h).1
    exact .inl rfl
  | cons d rest =>
    rw [words_cons_cons hc] at h
    split at h
    · -- The next character belongs to the word and is its second, or the word ends here.
      rename_i hbelongs
      obtain ⟨v, vs, hv⟩ := exists_words_cons (Bool.and_eq_true_iff.mp hbelongs).1 rest
      rw [hv] at h
      obtain rfl : d :: v = w := by simpa using (List.cons.inj h).1
      exact .inr rfl
    · obtain rfl : [] = w := by simpa using (List.cons.inj h).1
      exact .inl rfl

/-- A word is its own only word. -/
theorem words_of_mem_words (h : w ∈ words cs) : words w = [w] := by
  induction cs generalizing w with
  | nil => exact absurd h List.not_mem_nil
  | cons c cs ih =>
    by_cases hc : isAsciiAlphanumeric c
    · cases cs with
      | nil =>
        rw [words_singleton hc] at h
        obtain rfl := List.mem_singleton.mp h
        exact words_singleton hc
      | cons d rest =>
        rw [words_cons_cons hc] at h
        split at h
        · -- The word behind the character is its own only word, and the character joins it.
          rename_i hbelongs
          have hd := (Bool.and_eq_true_iff.mp hbelongs).1
          obtain ⟨v, vs, hv⟩ := exists_words_cons hd rest
          have hwhole : words (d :: v) = [d :: v] := ih (hv ▸ List.mem_cons_self)
          rw [hv, consFirst, List.mem_cons] at h
          rcases h with rfl | hmem
          · have hkept : belongs c d v.head? := by
              rcases head?_of_words_cons hd hv with hend | hgoes
              · rw [hend]
                exact belongs_none hbelongs
              · rw [hgoes]
                exact hbelongs
            rw [words_cons_cons hc, if_pos hkept, hwhole]
            rfl
          · exact ih (hv ▸ List.mem_cons_of_mem _ hmem)
        · rcases List.mem_cons.mp h with rfl | hmem
          · exact words_singleton hc
          · exact ih hmem
    · rw [words_separator (Bool.not_eq_true _ ▸ hc)] at h
      exact ih h

/-- Words with separators between them are cut apart again. -/
theorem words_joined (hc : isAsciiAlphanumeric c = false) (h : ∀ w ∈ ws, words w = [w]) :
    words (joined [c] ws) = ws := by
  have hsep : ∀ front rest, words (front ++ [c] ++ rest) = words front ++ words rest := by
    intro front rest
    rw [List.append_assoc, List.singleton_append, words_append_separator hc]
  calc words (joined [c] ws) = ws.flatMap words := apply_joined words_nil hsep ws
    _ = ws.flatMap fun w => [w] := List.flatMap_congr h
    _ = ws := List.flatMap_singleton' ws

/-! ## Names -/

theorem splitWords_of_mem {name word : String} (h : word ∈ splitWords name) :
    word ≠ "" ∧ splitWords word = [word] := by
  obtain ⟨w, hw, rfl⟩ := List.mem_map.mp h
  constructor
  · rw [Ne, String.ofList_eq_empty_iff]
    exact ne_nil_of_mem_words hw
  · rw [splitWords, String.toList_ofList, words_of_mem_words hw, List.map_singleton]

/-- Words of a name that are joined by spaces are found again. -/
theorem splitWords_intercalate {name : String} {words : List String}
    (h : words ⊆ splitWords name) : splitWords (" ".intercalate words) = words := by
  have hwhole : ∀ w ∈ words.map String.toList, Naming.words w = [w] := by
    intro w hw
    obtain ⟨word, hword, rfl⟩ := List.mem_map.mp hw
    obtain ⟨v, hv, rfl⟩ := List.mem_map.mp (h hword)
    rw [String.toList_ofList]
    exact words_of_mem_words hv
  have hspace : " ".toList = [' '] := rfl
  rw [splitWords, toList_intercalate, hspace, words_joined (by decide) hwhole, List.map_map]
  simp

end ClientGen.Naming
