import ClientGen.Text.Match
import ClientGen.Proofs.Naming.Boundaries

/-!
# Words by pattern

The words of a name can be found in another way: the name is cut at every character that is no
letter and no digit, and in each piece four patterns are tried, one after another, again and again.
What is found are the same words.

* `Naming.run?`, `Naming.acronym?`, `Naming.capitalized?`: the patterns.
* `Naming.word?`: the first of them that matches. What it takes is the first word
  (`Naming.words_of_word?`), and one of them matches at every letter and digit
  (`Naming.not_alphanumeric_of_word?`).
* `Naming.found`: what the patterns find in a text. These are its words (`Naming.words_eq_found`).
* `Naming.splitWords_rejoined`: the words are what the patterns find in the pieces; nothing is lost
  between them, each is a word by itself, and joined by spaces they are found again.
-/

namespace ClientGen.Naming

open Text

variable {a c d : Char} {cs rest w : List Char} {p : Char → Bool}

/-! ## The patterns -/

/-- Characters of a class, at least one and as many as there are. -/
def run? (p : Char → Bool) : Recogniser (List Char)
  | [] => none
  | c :: cs => if p c then some ((c :: cs).takeWhile p, (c :: cs).dropWhile p) else none

/-- Does the text start with a capital letter that has a small one behind it? -/
def startsCapitalized : List Char → Bool
  | a :: b :: _ => isAsciiUpper a && isAsciiLower b
  | _ => false

/-- Capital letters, at least one and as many as there can be in front of a capital letter with a
small one behind it. -/
def acronym? : Recogniser (List Char)
  | [] => none
  | c :: cs =>
    if isAsciiUpper c then
      match acronym? cs with
      | some (w, rest) => some (c :: w, rest)
      | none => if startsCapitalized cs then some ([c], cs) else none
    else none

/-- Small letters, at least one and as many as there are, with a capital letter in front if there is
one. -/
def capitalized? : Recogniser (List Char)
  | [] => none
  | c :: cs =>
    if isAsciiUpper c then (run? isAsciiLower cs).map fun (w, rest) => (c :: w, rest)
    else run? isAsciiLower (c :: cs)

/-- The first of the patterns that matches: an acronym, a capitalised word or one in small letters,
capital letters, digits. -/
def word? : Recogniser (List Char) := fun cs =>
  (acronym? cs).or <| (capitalized? cs).or <| (run? isAsciiUpper cs).or (run? isAsciiDigit cs)

/-- Where characters of a class are taken, there is one at the start. -/
theorem exists_of_run? (h : run? p cs = some (w, rest)) :
    ∃ c more, cs = c :: more ∧ p c ∧ cs.takeWhile p = w ∧ cs.dropWhile p = rest := by
  cases cs with
  | nil => cases h
  | cons c more =>
    rw [run?] at h
    split at h
    · exact ⟨c, more, rfl, ‹_›, Prod.mk.inj (Option.some.inj h)⟩
    · cases h

/-- A run of characters is cut off the front of the text, and it is not empty. -/
theorem eq_append_of_run? (h : run? p cs = some (w, rest)) : cs = w ++ rest ∧ w ≠ [] := by
  obtain ⟨c, more, rfl, hc, rfl, rfl⟩ := exists_of_run? h
  refine ⟨List.takeWhile_append_dropWhile.symm, ?_⟩
  rw [List.takeWhile_cons_of_pos hc]
  exact List.cons_ne_nil _ _

/-- An acronym is cut off the front of the text, and it is not empty. -/
theorem eq_append_of_acronym? (h : acronym? cs = some (w, rest)) : cs = w ++ rest ∧ w ≠ [] := by
  fun_induction acronym? cs generalizing w rest with
  | case1 => cases h
  | case2 c cs hupper v rest' hmore ih =>
    obtain ⟨rfl, rfl⟩ := Prod.mk.inj (Option.some.inj h)
    exact ⟨congrArg (List.cons c) (ih hmore).1, List.cons_ne_nil _ _⟩
  | case3 c cs hupper hmore hstarts =>
    obtain ⟨rfl, rfl⟩ := Prod.mk.inj (Option.some.inj h)
    exact ⟨rfl, List.cons_ne_nil _ _⟩
  | case4 => cases h
  | case5 => cases h

/-- A capitalised word is cut off the front of the text, and it is not empty. -/
theorem eq_append_of_capitalized? (h : capitalized? cs = some (w, rest)) :
    cs = w ++ rest ∧ w ≠ [] := by
  cases cs with
  | nil => cases h
  | cons c cs =>
    rw [capitalized?] at h
    split at h
    · obtain ⟨⟨v, rest'⟩, hrun, hpair⟩ := Option.map_eq_some_iff.mp h
      obtain ⟨rfl, rfl⟩ := Prod.mk.inj hpair
      exact ⟨congrArg (List.cons c) (eq_append_of_run? hrun).1, List.cons_ne_nil _ _⟩
    · exact eq_append_of_run? h

/-- What a pattern takes stands at the start of the text, and is not empty. -/
theorem eq_append_of_word? (h : word? cs = some (w, rest)) : cs = w ++ rest ∧ w ≠ [] := by
  simp only [word?, Option.or_eq_some_iff] at h
  rcases h with h | ⟨-, h | ⟨-, h | ⟨-, h⟩⟩⟩
  · exact eq_append_of_acronym? h
  · exact eq_append_of_capitalized? h
  · exact eq_append_of_run? h
  · exact eq_append_of_run? h

/-- What the patterns find in a text, from left to right and without overlap. A character at which
none of them matches is passed over. -/
def found : List Char → List (List Char)
  | [] => []
  | c :: cs =>
    match _h : word? (c :: cs) with
    | some (w, rest) => w :: found rest
    | none => found cs
termination_by cs => cs.length
decreasing_by
  · obtain ⟨heq, hne⟩ := eq_append_of_word? _h
    have hlength := congrArg List.length heq
    have hpos := List.length_pos_iff.mpr hne
    rw [List.length_append] at hlength
    omega
  · exact Nat.lt_succ_self _

/-! ## What the patterns take -/

/-- A capital letter is a letter or digit. -/
theorem alphanumeric_of_upper (h : isAsciiUpper c) : isAsciiAlphanumeric c := by
  simp [isAsciiAlphanumeric, h]

/-- A small letter is a letter or digit. -/
theorem alphanumeric_of_lower (h : isAsciiLower c) : isAsciiAlphanumeric c := by
  simp [isAsciiAlphanumeric, h]

/-- A digit is a letter or digit. -/
theorem alphanumeric_of_digit (h : isAsciiDigit c) : isAsciiAlphanumeric c := by
  simp [isAsciiAlphanumeric, h]

/-- A capital letter belongs to the word of another one, unless a small one comes next. -/
theorem belongs_upper (ha : isAsciiUpper a) (hd : isAsciiUpper d) (next : Option Char) :
    belongs a d next = !next.any isAsciiLower := by
  simp [belongs, breaksBetween, alphanumeric_of_upper hd, ha, hd]

/-- Only letters belong to the word of a capital letter. -/
theorem belongs_of_not_upper (ha : isAsciiUpper a) (hd : isAsciiUpper d = false)
    (next : Option Char) : belongs a d next = isAsciiLower d := by
  cases cased (alphanumeric_of_upper ha) <;> by_cases halpha : isAsciiAlphanumeric d
  · cases cased halpha <;> simp_all [belongs, breaksBetween]
  all_goals simp_all [belongs, breaksBetween, isAsciiAlphanumeric]

/-- Characters of a class are the first word of a text, if all along the text, under a condition
that is kept, exactly the characters of the class belong to the word of the one in front of them. -/
theorem words_takeWhile {K : List Char → Prop} (halpha : ∀ a, p a → isAsciiAlphanumeric a)
    (hstep : ∀ a d more, p a → K (a :: d :: more) →
      belongs a d more.head? = p d ∧ (p d → K (d :: more)))
    (hc : p c) (hkept : K (c :: cs)) :
    words (c :: cs) = (c :: cs).takeWhile p :: words ((c :: cs).dropWhile p) := by
  rw [List.takeWhile_cons_of_pos hc, List.dropWhile_cons_of_pos hc]
  induction cs generalizing c with
  | nil => exact words_singleton (halpha c hc)
  | cons d more ih =>
    -- `hstep` decides from the next two characters whether the word goes on.
    obtain ⟨hbelongs, hnext⟩ := hstep c d more hc hkept
    rw [words_cons_cons (halpha c hc), hbelongs]
    cases hd : p d with
    | true =>
      rw [if_pos rfl, ih hd (hnext hd), List.takeWhile_cons_of_pos hd,
        List.dropWhile_cons_of_pos hd]
      rfl
    | false =>
      rw [List.takeWhile_cons_of_neg (by simp [hd]), List.dropWhile_cons_of_neg (by simp [hd])]
      rfl

/-- Small letters are a word, and so are digits. -/
theorem words_run (hp : p = isAsciiLower ∨ p = isAsciiDigit) (hc : p c) (cs : List Char) :
    words (c :: cs) = (c :: cs).takeWhile p :: words ((c :: cs).dropWhile p) := by
  have halpha : ∀ a, p a → isAsciiAlphanumeric a := by
    rcases hp with rfl | rfl
    · exact fun a => alphanumeric_of_lower
    · exact fun a => alphanumeric_of_digit
  -- Digits and small letters do not look at the third character, so nothing has to be kept.
  refine words_takeWhile (K := fun _ => True) halpha (fun a d more ha _ => ⟨?_, ?_⟩) hc trivial
  · have hcased := cased (halpha a ha)
    by_cases hd : isAsciiAlphanumeric d
    · rcases hp with rfl | rfl <;> cases hcased <;> cases cased hd <;>
        simp_all [belongs, breaksBetween]
    · have hother : p d = false := by
        rw [← Bool.not_eq_true]
        exact fun hpd => hd (halpha d hpd)
      rw [Bool.not_eq_true] at hd
      rw [belongs, hd, hother, Bool.false_and]
  · exact fun _ => trivial

/-- A run of small letters or of digits at the front is the first word. -/
theorem words_of_run? (hp : p = isAsciiLower ∨ p = isAsciiDigit) (h : run? p cs = some (w, rest)) :
    words cs = w :: words rest := by
  obtain ⟨c, more, rfl, hc, rfl, rfl⟩ := exists_of_run? h
  exact words_run hp hc more

/-- Where an acronym is, there are two capital letters. -/
theorem exists_of_acronym? (h : acronym? cs = some (w, rest)) :
    ∃ a d more, cs = a :: d :: more ∧ isAsciiUpper a ∧ isAsciiUpper d := by
  -- Either the acronym goes on, or the letter behind it opens a capitalised word.
  have hhead : ∀ {cs w rest}, acronym? cs = some (w, rest) →
      ∃ a more, cs = a :: more ∧ isAsciiUpper a ∧
        ((acronym? more).isSome ∨ startsCapitalized more) := by
    intro cs w rest h
    cases cs with
    | nil => cases h
    | cons a more =>
      rw [acronym?] at h
      split at h
      · refine ⟨a, more, rfl, ‹_›, ?_⟩
        split at h
        · rename_i hmore
          exact .inl (by rw [hmore]; rfl)
        · split at h
          · exact .inr ‹_›
          · cases h
      · cases h
  obtain ⟨a, more, rfl, ha, hmore | hstarts⟩ := hhead h
  · obtain ⟨⟨v, rest'⟩, hv⟩ := Option.isSome_iff_exists.mp hmore
    obtain ⟨d, more, rfl, hd, -⟩ := hhead hv
    exact ⟨a, d, more, rfl, ha, hd⟩
  · match more, hstarts with
    | d :: e :: more, hstarts =>
      exact ⟨a, d, e :: more, rfl, ha, (Bool.and_eq_true_iff.mp hstarts).1⟩

/-- A capital letter is no small letter. -/
theorem not_lower_of_upper (h : isAsciiUpper c) : isAsciiLower c = false := by
  cases cased (alphanumeric_of_upper h) <;> simp_all

/-- An acronym is the first word. -/
theorem words_of_acronym? (h : acronym? cs = some (w, rest)) : words cs = w :: words rest := by
  fun_induction acronym? cs generalizing w rest with
  | case1 => cases h
  | case2 c cs hupper v rest' hmore ih =>
    obtain ⟨rfl, rfl⟩ := Prod.mk.inj (Option.some.inj h)
    have hwords := ih hmore
    obtain ⟨a, d, more, rfl, ha, hd⟩ := exists_of_acronym? hmore
    -- The acronym goes on behind `c`, so `c` and the next capital are in one word.
    have hinside : belongs c a (d :: more).head? := by
      rw [belongs_upper hupper ha]
      simp [not_lower_of_upper hd]
    rw [words_cons_cons (alphanumeric_of_upper hupper), if_pos hinside, hwords]
    rfl
  | case3 c cs hupper hmore hstarts =>
    obtain ⟨rfl, rfl⟩ := Prod.mk.inj (Option.some.inj h)
    match cs, hstarts with
    | a :: d :: more, hstarts =>
      obtain ⟨ha, hd⟩ := Bool.and_eq_true_iff.mp hstarts
      -- A small letter follows the next capital, which therefore opens a word.
      have hbehind : belongs c a (d :: more).head? = false := by
        rw [belongs_upper hupper ha]
        simp [hd]
      rw [words_cons_cons (alphanumeric_of_upper hupper), hbehind]
      rfl
  | case4 => cases h
  | case5 => cases h

/-- Small letters with a capital one in front of them, or without one, are the first word. -/
theorem words_of_capitalized? (h : capitalized? cs = some (w, rest)) :
    words cs = w :: words rest := by
  cases cs with
  | nil => cases h
  | cons c cs =>
    rw [capitalized?] at h
    split at h
    · -- The capital is not followed by another one, so it stays with the run behind it.
      rename_i hupper
      obtain ⟨⟨v, rest'⟩, hrun, hpair⟩ := Option.map_eq_some_iff.mp h
      obtain ⟨rfl, rfl⟩ := Prod.mk.inj hpair
      have hwords := words_of_run? (.inl rfl) hrun
      obtain ⟨d, more, rfl, hd, -, -⟩ := exists_of_run? hrun
      have hother : isAsciiUpper d = false := by
        rw [← Bool.not_eq_true]
        intro hcapital
        simp [not_lower_of_upper hcapital] at hd
      rw [words_cons_cons (alphanumeric_of_upper hupper), belongs_of_not_upper hupper hother,
        if_pos hd, hwords]
      rfl
    · exact words_of_run? (.inl rfl) h

/-- Capital letters are the first word, if there is no acronym and no small letter behind the first
of them. -/
theorem words_upper (hc : isAsciiUpper c) (hacronym : acronym? (c :: cs) = none)
    (hcapitalized : cs.head?.any isAsciiLower = false) :
    words (c :: cs)
      = (c :: cs).takeWhile isAsciiUpper :: words ((c :: cs).dropWhile isAsciiUpper) := by
  refine words_takeWhile
    (K := fun cs => acronym? cs = none ∧ cs.tail.head?.any isAsciiLower = false)
    (fun a => alphanumeric_of_upper) ?_ hc ⟨hacronym, hcapitalized⟩
  rintro a d more ha ⟨hnone, hlower⟩
  have hlower : isAsciiLower d = false := by simpa using hlower
  by_cases hd : isAsciiUpper d
  · -- With a small letter next there would be an acronym in front of `d`.
    have hlater : acronym? (d :: more) = none ∧ more.head?.any isAsciiLower = false := by
      rw [acronym?, if_pos ha] at hnone
      split at hnone
      · cases hnone
      · rename_i hlater
        refine ⟨hlater, ?_⟩
        cases more with
        | nil => rfl
        | cons e more => simpa [startsCapitalized, hd] using hnone
    rw [belongs_upper ha hd, hlater.2, hd]
    exact ⟨rfl, fun _ => hlater⟩
  · rw [Bool.not_eq_true] at hd
    rw [belongs_of_not_upper ha hd, hlower, hd]
    exact ⟨rfl, fun h => absurd h Bool.false_ne_true⟩

/-! ## All that the patterns find -/

/-- What the first pattern that matches takes is the first word. -/
theorem words_of_word? (h : word? cs = some (w, rest)) : words cs = w :: words rest := by
  simp only [word?, Option.or_eq_some_iff] at h
  rcases h with h | ⟨hacronym, h | ⟨hcapitalized, h | ⟨-, h⟩⟩⟩
  · exact words_of_acronym? h
  · exact words_of_capitalized? h
  · obtain ⟨c, cs, rfl, hc, rfl, rfl⟩ := exists_of_run? h
    refine words_upper hc hacronym ?_
    -- A small letter behind the first capital one would make a capitalised word.
    rw [capitalized?, if_pos hc, Option.map_eq_none_iff] at hcapitalized
    cases cs with
    | nil => rfl
    | cons d more => simpa [run?] using hcapitalized
  · exact words_of_run? (.inr rfl) h

/-- At every letter and digit one of the patterns matches. -/
theorem not_alphanumeric_of_word? (h : word? (c :: cs) = none) : isAsciiAlphanumeric c = false := by
  simp only [word?, Option.or_eq_none_iff] at h
  obtain ⟨-, hcapitalized, hupper, hdigit⟩ := h
  have hnone : ∀ {p}, run? p (c :: cs) = none → p c = false := by
    intro p h
    simpa [run?] using h
  have hcapital := hnone hupper
  rw [capitalized?, hcapital] at hcapitalized
  rw [isAsciiAlphanumeric, hcapital, hnone hcapitalized, hnone hdigit]
  rfl

/-- The words of a text are what the patterns find in it. -/
theorem words_eq_found (cs : List Char) : words cs = found cs := by
  fun_induction found cs with
  | case1 => rfl
  | case2 c cs w rest hword ih => rw [words_of_word? hword, ih]
  | case3 c cs hnone ih => rw [words_separator (not_alphanumeric_of_word? hnone), ih]

/-- The pieces of a text between characters that are no letters and no digits. Some may be empty. -/
def chunks (cs : List Char) : List (List Char) := cs.splitOnP fun c => !isAsciiAlphanumeric c

/-- What the patterns find in the pieces of a text are its words. -/
theorem words_eq_flatMap_found (cs : List Char) : words cs = (chunks cs).flatMap found := by
  induction hn : cs.length using Nat.strong_induction_on generalizing cs with
  | _ n ih =>
    by_cases hall : ∀ c ∈ cs, isAsciiAlphanumeric c
    · have hone : chunks cs = [cs] :=
        List.splitOnP_eq_singleton fun c hc => by rw [hall c hc]; rfl
      rw [hone, List.flatMap_singleton, words_eq_found]
    · -- On both sides of a separator the pieces and the words are those of a shorter text.
      push Not at hall
      obtain ⟨c, hmem, hc⟩ := hall
      rw [Ne, Bool.not_eq_true] at hc
      obtain ⟨front, rest, rfl⟩ := List.append_of_mem hmem
      rw [List.length_append, List.length_cons] at hn
      have hsplit : chunks (front ++ c :: rest) = chunks front ++ chunks rest :=
        List.splitOnP_append_cons front rest (by rw [hc]; rfl)
      rw [hsplit, List.flatMap_append, words_append_separator hc,
        ih front.length (by omega) front rfl, ih rest.length (by omega) rest rfl]

/-! ## Names -/

/-- Leaving out the leading resource adds no words. -/
theorem withoutLeadingResource_subset (words : List String) :
    withoutLeadingResource words ⊆ words := by
  cases words with
  | nil => exact List.Subset.refl _
  | cons first rest =>
    rw [withoutLeadingResource]
    split
    · exact List.subset_cons_self _ _
    · exact List.Subset.refl _

/-- The words of a name are what the patterns find in its pieces. Put together they are the ASCII
letters and digits of the name, in order; each of them is a word by itself; and joined by spaces
they are found again. So an operation id, whose words are joined and cut apart once more, is put
together from just the words that were left of it. -/
theorem splitWords_rejoined (name : String) :
    splitWords name = ((chunks name.toList).flatMap found).map String.ofList ∧
      String.join (splitWords name) = String.ofList (name.toList.filter isAsciiAlphanumeric) ∧
      (∀ word ∈ splitWords name, word ≠ "" ∧ splitWords word = [word]) ∧
      splitWords (" ".intercalate (splitWords name)) = splitWords name ∧
      cleanOperationId name = String.ofList (uncapitalize (String.join ((withoutLeadingResource
        (splitWords (withoutNoise name))).map capitalizeWord)).toList) := by
  refine ⟨?_, ?_, fun word hword => splitWords_of_mem hword,
    splitWords_intercalate (List.Subset.refl _), ?_⟩
  · rw [splitWords, words_eq_flatMap_found]
  · rw [← String.toList_inj, String.toList_join, String.toList_ofList, splitWords,
      List.flatMap_map, ← flatten_words]
    simp
  · rw [cleanOperationId, camelCase, pascalCase,
      splitWords_intercalate (withoutLeadingResource_subset _)]

example : splitWords "getHTTPServer2 für_X9"
    = ["get", "HTTP", "Server", "2", "f", "r", "X", "9"] := by
  decide +kernel

end ClientGen.Naming
