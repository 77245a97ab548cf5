import Mathlib.Data.List.Chain
import ClientGen.Proofs.Naming.Alphabet

/-!
# Names converted again

A name in Pascal or camel case that is converted once more is cut into words anew. It comes out as
it was, unless words of one letter stand side by side: `x-y` gives `XY`, which is a single word and
gives `Xy`.

* `Naming.IsInitial`: a word of one letter, and `Naming.InitialsApart`: words of which no two of one
  letter are neighbours.
* `Naming.recased`: the letters of a text in the case that they get as parts of words, and
  `Naming.flatMap_properCase_words`: words put together give just that.
* `Naming.recased_flatten_eq_iff`: which words keep their case when they are put together and
  cut apart again.
* `Naming.converted_again_eq_iff`: the names that are left as they are, in either case.
-/

namespace ClientGen

namespace Text

variable {c : Char}

/-- A letter of ASCII. -/
def isAsciiLetter (c : Char) : Bool := isAsciiUpper c || isAsciiLower c

/-- The kinds of letters and digits, with what becomes of them in upper and lower case. -/
inductive Cased (c : Char) : Prop where
  /-- A capital letter is in upper case. -/
  | upper (hupper : isAsciiUpper c = true) (hlower : isAsciiLower c = false)
    (hdigit : isAsciiDigit c = false) (hkept : c.toUpper = c) (hsmall : isAsciiLower c.toLower)
  /-- A small letter is in lower case. -/
  | lower (hupper : isAsciiUpper c = false) (hlower : isAsciiLower c = true)
    (hdigit : isAsciiDigit c = false) (hkept : c.toLower = c) (hcapital : isAsciiUpper c.toUpper)
  /-- A digit has no case. -/
  | digit (hupper : isAsciiUpper c = false) (hlower : isAsciiLower c = false)
    (hdigit : isAsciiDigit c = true) (hupperCase : c.toUpper = c) (hlowerCase : c.toLower = c)

/-- A letter or digit of ASCII is of one of three kinds, and what becomes of it is known. -/
theorem cased (h : isAsciiAlphanumeric c) : Cased c := by
  -- The four conversions are checked for every ASCII character.
  have hall : ∀ n < 128,
      (isAsciiUpper (Char.ofNat n) → isAsciiLower (Char.ofNat n) = false ∧
        isAsciiDigit (Char.ofNat n) = false ∧ (Char.ofNat n).toUpper = Char.ofNat n ∧
        isAsciiLower (Char.ofNat n).toLower) ∧
      (isAsciiLower (Char.ofNat n) → isAsciiUpper (Char.ofNat n) = false ∧
        isAsciiDigit (Char.ofNat n) = false ∧ (Char.ofNat n).toLower = Char.ofNat n ∧
        isAsciiUpper (Char.ofNat n).toUpper) ∧
      (isAsciiDigit (Char.ofNat n) → isAsciiUpper (Char.ofNat n) = false ∧
        isAsciiLower (Char.ofNat n) = false ∧ (Char.ofNat n).toUpper = Char.ofNat n ∧
        (Char.ofNat n).toLower = Char.ofNat n) := by
    decide +kernel
  have hc := hall c.toNat (toNat_lt_of_isAsciiAlphanumeric h)
  rw [Char.ofNat_toNat] at hc
  obtain ⟨hcapital, hsmall, hnumber⟩ := hc
  rw [isAsciiAlphanumeric, Bool.or_eq_true, Bool.or_eq_true] at h
  rcases h with (h | h) | h
  · obtain ⟨hlower, hdigit, hkept, hto⟩ := hcapital h
    exact .upper h hlower hdigit hkept hto
  · obtain ⟨hupper, hdigit, hkept, hto⟩ := hsmall h
    exact .lower hupper h hdigit hkept hto
  · obtain ⟨hupper, hlower, hkept, hkept'⟩ := hnumber h
    exact .digit hupper hlower h hkept hkept'

/-- In upper case, a letter or digit is no small letter. -/
theorem toUpper_kind (h : isAsciiAlphanumeric c) : isAsciiAlphanumeric c.toUpper ∧
    isAsciiLower c.toUpper = false ∧ isAsciiDigit c.toUpper = isAsciiDigit c := by
  have hall : ∀ n < 128, isAsciiAlphanumeric (Char.ofNat n) →
      isAsciiAlphanumeric (Char.ofNat n).toUpper ∧ isAsciiLower (Char.ofNat n).toUpper = false ∧
        isAsciiDigit (Char.ofNat n).toUpper = isAsciiDigit (Char.ofNat n) := by decide +kernel
  exact of_ascii (p := fun c => isAsciiAlphanumeric c → isAsciiAlphanumeric c.toUpper ∧
    isAsciiLower c.toUpper = false ∧ isAsciiDigit c.toUpper = isAsciiDigit c) hall
    (toNat_lt_of_isAsciiAlphanumeric h) h

/-- In lower case, a letter or digit is no capital letter. -/
theorem toLower_kind (h : isAsciiAlphanumeric c) : isAsciiAlphanumeric c.toLower ∧
    isAsciiUpper c.toLower = false ∧ isAsciiDigit c.toLower = isAsciiDigit c := by
  have hall : ∀ n < 128, isAsciiAlphanumeric (Char.ofNat n) →
      isAsciiAlphanumeric (Char.ofNat n).toLower ∧ isAsciiUpper (Char.ofNat n).toLower = false ∧
        isAsciiDigit (Char.ofNat n).toLower = isAsciiDigit (Char.ofNat n) := by decide +kernel
  exact of_ascii (p := fun c => isAsciiAlphanumeric c → isAsciiAlphanumeric c.toLower ∧
    isAsciiUpper c.toLower = false ∧ isAsciiDigit c.toLower = isAsciiDigit c) hall
    (toNat_lt_of_isAsciiAlphanumeric h) h

/-- A letter or digit that is made small, large and small again is small. -/
theorem toLower_toUpper_toLower (h : isAsciiAlphanumeric c) :
    c.toLower.toUpper.toLower = c.toLower := by
  have hall : ∀ n < 128, (Char.ofNat n).toLower.toUpper.toLower = (Char.ofNat n).toLower := by
    decide +kernel
  exact of_ascii (p := fun c => c.toLower.toUpper.toLower = c.toLower) hall
    (toNat_lt_of_isAsciiAlphanumeric h)

/-- The first character of a word becomes the capital of the letter. -/
theorem titleChar_eq (h : isAsciiAlphanumeric c) : titleChar c = [c.toUpper] := by
  have hall : ∀ n < 128, titleChar (Char.ofNat n) = [(Char.ofNat n).toUpper] := by decide +kernel
  exact of_ascii (p := fun c => titleChar c = [c.toUpper]) hall (toNat_lt_of_isAsciiAlphanumeric h)

/-- A character inside a word becomes the small letter. -/
theorem lowerChar_eq (h : isAsciiAlphanumeric c) : lowerChar c = [c.toLower] := by
  have hall : ∀ n < 128, lowerChar (Char.ofNat n) = [(Char.ofNat n).toLower] := by decide +kernel
  exact of_ascii (p := fun c => lowerChar c = [c.toLower]) hall (toNat_lt_of_isAsciiAlphanumeric h)

/-- Inside of a word all letters and digits become small. -/
theorem lowerAfter_eq {before cs : List Char} (h : ∀ c ∈ cs, isAsciiAlphanumeric c) :
    lowerAfter before cs = cs.map Char.toLower := by
  induction cs generalizing before with
  | nil => rfl
  | cons c cs ih =>
    obtain ⟨hc, hcs⟩ := List.forall_mem_cons.mp h
    have hsigma : c ≠ 'Σ' := by
      rintro rfl
      exact absurd hc (by decide)
    rw [lowerAfter, if_neg hsigma, lowerChar_eq hc, ih hcs]
    rfl

/-- A word of letters and digits gets a capital in front and small letters behind it. -/
theorem properCase_eq {cs : List Char} (h : ∀ d ∈ c :: cs, isAsciiAlphanumeric d) :
    properCase (c :: cs) = c.toUpper :: cs.map Char.toLower := by
  obtain ⟨hc, hcs⟩ := List.forall_mem_cons.mp h
  rw [properCase, titleChar_eq hc, lowerAfter_eq hcs]
  rfl

end Text

namespace Naming

open Text

variable {a b c : Char} {cs w : List Char} {ws : List (List Char)}

/-! ## Case by position -/

/-- The characters behind `a`, in the case that they get as parts of words. -/
def recased : Char → List Char → List Char
  | _, [] => []
  | a, b :: rest =>
    (if breaksBetween a b rest.head? then b.toUpper else b.toLower) :: recased b rest

/-- The first word of a text starts as the text does. -/
theorem exists_words_cons (hc : isAsciiAlphanumeric c) (cs : List Char) :
    ∃ w ws, words (c :: cs) = (c :: w) :: ws := by
  rw [words.eq_def]
  simp only [if_pos hc]
  cases cs with
  | nil => exact ⟨[], [], rfl⟩
  | cons d rest =>
    dsimp only
    split
    · cases words (d :: rest) with
      | nil => exact ⟨[], [], rfl⟩
      | cons w ws => exact ⟨w, ws, rfl⟩
    · exact ⟨[], _, rfl⟩

/-- Words have letters and digits only. -/
theorem alphanumeric_of_mem_words (hw : w ∈ words cs) (hc : c ∈ w) : isAsciiAlphanumeric c := by
  have hmem : c ∈ (words cs).flatten := List.mem_flatten.mpr ⟨w, hw, hc⟩
  rw [flatten_words] at hmem
  exact (List.mem_filter.mp hmem).2

/-- The words of letters and digits put together: the first character is in upper case. -/
theorem flatMap_properCase_words (h : ∀ d ∈ c :: cs, isAsciiAlphanumeric d) :
    (words (c :: cs)).flatMap properCase = c.toUpper :: recased c cs := by
  induction cs generalizing c with
  | nil =>
    have hc := h c List.mem_cons_self
    rw [words.eq_def]
    simp [if_pos hc, properCase_eq h, recased]
  | cons d rest ih =>
    obtain ⟨hc, hrest⟩ := List.forall_mem_cons.mp h
    have hd := hrest d List.mem_cons_self
    have hlater := ih hrest
    obtain ⟨w, ws, hwords⟩ := exists_words_cons hd rest
    have hw : ∀ x ∈ d :: w, isAsciiAlphanumeric x := fun x hx =>
      alphanumeric_of_mem_words (hwords ▸ List.mem_cons_self) hx
    rw [words.eq_def]
    simp only [if_pos hc, hd, Bool.true_and]
    by_cases hbreak : breaksBetween c d rest.head?
    · -- The character is a word of its own.
      have hone : properCase [c] = [c.toUpper] := properCase_eq (by simpa using hc)
      simp [hbreak, hlater, hone, recased]
    · -- The character stands in front of the next word, whose first letter gets small.
      rw [hwords, List.flatMap_cons, properCase_eq hw, List.cons_append, List.cons.injEq] at hlater
      have hcw : ∀ x ∈ c :: d :: w, isAsciiAlphanumeric x := List.forall_mem_cons.mpr ⟨hc, hw⟩
      simp [hbreak, hwords, consFirst, properCase_eq hcw, recased, ← hlater.2]

/-! ## Words -/

/-- Is the word a single letter? -/
def isInitial : List Char → Bool
  | [c] => isAsciiLetter c
  | _ => false

/-- No two words of one letter stand side by side. -/
def InitialsApart (ws : List String) : Prop :=
  ws.IsChain fun v w => ¬ (isInitial v.toList ∧ isInitial w.toList)

instance (ws : List String) : Decidable (InitialsApart ws) := by
  unfold InitialsApart
  infer_instance

/-- Neighbours in a word are both digits or both letters. -/
theorem isAsciiDigit_eq_of_not_breaks {next : Option Char} (ha : isAsciiAlphanumeric a)
    (hb : isAsciiAlphanumeric b) (h : breaksBetween a b next = false) :
    isAsciiDigit a = isAsciiDigit b := by
  cases cased ha <;> cases cased hb <;> simp_all [breaksBetween]

/-- A word consists of digits or of letters. -/
theorem digits_or_letters_of_mem_words (hw : w ∈ words cs) :
    (∀ d ∈ w, isAsciiDigit d = true) ∨ ∀ d ∈ w, isAsciiDigit d = false := by
  induction cs generalizing w with
  | nil => simp [words] at hw
  | cons c cs ih =>
    rw [words.eq_def] at hw
    dsimp only at hw
    by_cases hc : isAsciiAlphanumeric c
    · rw [if_pos hc] at hw
      have hone : (∀ d ∈ [c], isAsciiDigit d = true) ∨ ∀ d ∈ [c], isAsciiDigit d = false := by
        cases isAsciiDigit c <;> simp
      cases cs with
      | nil =>
        obtain rfl : w = [c] := by simpa using hw
        exact hone
      | cons d rest =>
        dsimp only at hw
        split at hw
        · -- The character stands in front of the next word, and is of its kind.
          rename_i hjoins
          rw [Bool.and_eq_true, Bool.not_eq_true'] at hjoins
          obtain ⟨hd, hbreak⟩ := hjoins
          have hkind := isAsciiDigit_eq_of_not_breaks hc hd hbreak
          obtain ⟨v, vs, hwords⟩ := exists_words_cons hd rest
          rw [hwords, consFirst, List.mem_cons] at hw
          rcases hw with rfl | hw
          · have hnext := ih (hwords ▸ List.mem_cons_self)
            simpa [hkind] using hnext
          · exact ih (hwords ▸ List.mem_cons_of_mem _ hw)
        · rcases List.mem_cons.mp hw with rfl | hw
          · exact hone
          · exact ih hw
    · rw [if_neg hc] at hw
      exact ih hw

/-- The characters can stand behind `a` in a word that is put together with others: digits behind a
digit, small letters behind a letter. -/
def Behind (a : Char) (cs : List Char) : Prop :=
  ∀ d ∈ cs, isAsciiAlphanumeric d ∧ isAsciiUpper d = false ∧ isAsciiDigit d = isAsciiDigit a

/-- A word as it is put together with others: digits, or a capital letter with small ones behind
it. -/
def Proper : List Char → Prop
  | [] => False
  | c :: cs => isAsciiAlphanumeric c ∧ isAsciiLower c = false ∧ Behind c cs

/-- Words are put together in this form. -/
theorem proper_of_mem_words (hw : w ∈ words cs) : Proper (properCase w) := by
  obtain ⟨c, v, rfl⟩ := List.exists_cons_of_ne_nil (ne_nil_of_mem_words hw)
  have halpha : ∀ d ∈ c :: v, isAsciiAlphanumeric d := fun d hd => alphanumeric_of_mem_words hw hd
  obtain ⟨hc, hv⟩ := List.forall_mem_cons.mp halpha
  obtain ⟨hcapital, hlower, hdigit⟩ := toUpper_kind hc
  -- A word is all digits or all letters, so its first character tells of the others.
  have hkind : ∀ d ∈ v, isAsciiDigit d = isAsciiDigit c := by
    intro d hd
    rcases digits_or_letters_of_mem_words hw with h | h
    · rw [h c List.mem_cons_self, h d (List.mem_cons_of_mem _ hd)]
    · rw [h c List.mem_cons_self, h d (List.mem_cons_of_mem _ hd)]
  rw [properCase_eq halpha]
  refine ⟨hcapital, hlower, fun e he => ?_⟩
  obtain ⟨d, hd, rfl⟩ := List.mem_map.mp he
  obtain ⟨hsmall, hupper, hdigit'⟩ := toLower_kind (hv d hd)
  exact ⟨hsmall, hupper, by rw [hdigit', hdigit, hkind d hd]⟩

/-- A word is a single letter exactly if it is one in its proper case. -/
theorem isInitial_properCase (hw : w ∈ words cs) : isInitial (properCase w) = isInitial w := by
  obtain ⟨c, v, rfl⟩ := List.exists_cons_of_ne_nil (ne_nil_of_mem_words hw)
  have halpha : ∀ d ∈ c :: v, isAsciiAlphanumeric d := fun d hd => alphanumeric_of_mem_words hw hd
  rw [properCase_eq halpha]
  cases v with
  | nil =>
    cases cased (halpha c List.mem_cons_self) <;> simp_all [isInitial, isAsciiLetter]
  | cons d v => rfl

/-! ## Words that keep their case -/

/-- Characters are in their case already exactly if the first one is, and so are those behind it. -/
theorem recased_cons_eq_iff {rest : List Char} :
    recased a (b :: rest) = b :: rest ↔
      (if breaksBetween a b rest.head? then b.toUpper else b.toLower) = b ∧
        recased b rest = rest := by
  rw [recased, List.cons.injEq]

/-- Inside of a word, nothing changes its case. -/
theorem recased_append_eq_iff (h : Behind a cs) (rest : List Char) :
    recased a (cs ++ rest) = cs ++ rest ↔ recased (cs.getLastD a) rest = rest := by
  induction cs generalizing a with
  | nil => rfl
  | cons b cs ih =>
    obtain ⟨⟨hb, hupper, hdigit⟩, hcs⟩ := List.forall_mem_cons.mp h
    have hnext : Behind b cs := fun d hd => by rw [hdigit]; exact hcs d hd
    have hkept : (if breaksBetween a b (cs ++ rest).head? then b.toUpper else b.toLower) = b := by
      cases cased hb <;> simp_all [breaksBetween]
    rw [List.cons_append, recased_cons_eq_iff, and_iff_right hkept, ih hnext, List.getLastD_cons]

/-- Behind a capital letter there are small ones, so the last character is a capital only if there
is no other. -/
theorem isAsciiUpper_getLastD (h : Behind a cs) :
    isAsciiUpper (cs.getLastD a) = (cs.isEmpty && isAsciiUpper a) := by
  rcases List.eq_nil_or_concat cs with rfl | ⟨front, last, rfl⟩
  · rfl
  · have hlast := (h last (by simp)).2.1
    simp [hlast]

/-- A proper word is a single letter if there is nothing behind its capital letter. -/
theorem isInitial_cons (h : Proper (c :: cs)) :
    isInitial (c :: cs) = (cs.isEmpty && isAsciiUpper c) := by
  obtain ⟨-, hlower, -⟩ := h
  cases cs with
  | nil => simp [isInitial, isAsciiLetter, hlower]
  | cons d cs => rfl

/-- Words in their proper case begin with no small letter. -/
theorem head?_flatten_any_lower (h : ∀ w ∈ ws, Proper w) :
    ws.flatten.head?.any isAsciiLower = false := by
  cases ws with
  | nil => rfl
  | cons w ws =>
    have hw := h w List.mem_cons_self
    cases w with
    | nil => exact hw.elim
    | cons c cs => simpa using hw.2.1

/-- Proper words behind the character `a` keep their case if no two of one letter are neighbours,
where a capital letter `a` counts as such a word. -/
theorem recased_flatten_eq_iff (h : ∀ w ∈ ws, Proper w) :
    recased a ws.flatten = ws.flatten ↔
      (∀ w ∈ ws.head?, ¬ (isAsciiUpper a ∧ isInitial w)) ∧
        ws.IsChain fun v w => ¬ (isInitial v ∧ isInitial w) := by
  induction ws generalizing a with
  | nil => simp [recased]
  | cons w ws ih =>
    obtain ⟨hw, hws⟩ := List.forall_mem_cons.mp h
    cases w with
    | nil => exact hw.elim
    | cons c cs =>
      have hlower := head?_flatten_any_lower hws
      have hinitial := isInitial_cons hw
      obtain ⟨hc, hsmall, hcs⟩ := hw
      -- Behind a capital, a word of one letter is taken for its continuation and lowered.
      have hfirst :
          (if breaksBetween a c (cs ++ ws.flatten).head? then c.toUpper else c.toLower) = c
            ↔ ¬ (isAsciiUpper a ∧ isInitial (c :: cs)) := by
        rw [hinitial]
        cases cased hc with
        | upper hupper _ hdigit hkept hto =>
          have hne : c.toLower ≠ c := fun heq => by
            rw [heq, hsmall] at hto
            cases hto
          cases cs with
          | nil => cases ha : isAsciiUpper a <;> simp_all [breaksBetween]
          | cons d cs =>
            obtain ⟨hd, hdu, hdd⟩ := hcs d List.mem_cons_self
            cases cased hd <;> simp_all [breaksBetween]
        | lower _ hlower => simp_all
        | digit hupper _ _ hkept hkept' => simp [hkept, hkept', hupper]
      rw [List.flatten_cons, List.cons_append, recased_cons_eq_iff, hfirst,
        recased_append_eq_iff hcs, ih hws, isAsciiUpper_getLastD hcs, ← hinitial,
        List.isChain_cons]
      simp

/-! ## Names -/

/-- The words of a name, as they are put together in Pascal case. -/
def properWords (name : String) : List (List Char) := (words name.toList).map properCase

variable {name : String}

/-- A name in Pascal case is its words, each in its proper case. -/
theorem toList_pascalCase_eq (name : String) :
    (pascalCase name).toList = (properWords name).flatten := by
  rw [toList_pascalCase, properWords, List.flatMap_def]

/-- The words that make up a name in Pascal case are in their proper case. -/
theorem proper_of_mem_properWords (hw : w ∈ properWords name) : Proper w := by
  obtain ⟨v, hv, rfl⟩ := List.mem_map.mp hw
  exact proper_of_mem_words hv

/-- Words of one letter are told apart in either case. -/
theorem initialsApart_map_iff (h : ∀ w ∈ ws, w ∈ words cs) :
    InitialsApart (ws.map String.ofList) ↔
      (ws.map properCase).IsChain fun v w => ¬ (isInitial v ∧ isInitial w) := by
  rw [InitialsApart, List.isChain_map, List.isChain_map]
  refine List.IsChain.iff_of_mem_imp fun v w hv hw => ?_
  rw [isInitial_properCase (h v hv), isInitial_properCase (h w hw), String.toList_ofList,
    String.toList_ofList]

/-- A name in Pascal case that is converted to it once more. -/
theorem pascalCase_pascalCase_eq_iff (name : String) :
    pascalCase (pascalCase name) = pascalCase name ↔
      (properWords name).IsChain fun v w => ¬ (isInitial v ∧ isInitial w) := by
  -- The words are in their proper case, so a second conversion can only change them where two of
  -- one letter meet.
  have hproper : ∀ w ∈ properWords name, Proper w := fun w => proper_of_mem_properWords
  have halpha := fun d => alphanumeric_pascalCase name (d := d)
  rw [toList_pascalCase_eq] at halpha
  rw [← String.toList_inj, toList_pascalCase, toList_pascalCase_eq]
  cases hwords : properWords name with
  | nil => simp [words]
  | cons w ws =>
    rw [hwords] at hproper halpha
    obtain ⟨hw, hws⟩ := List.forall_mem_cons.mp hproper
    cases w with
    | nil => exact hw.elim
    | cons c cs =>
      have hinitial := isInitial_cons hw
      obtain ⟨hc, hlower, hcs⟩ := hw
      have hkept : c.toUpper = c := by cases cased hc <;> simp_all
      rw [List.flatten_cons, List.cons_append] at halpha ⊢
      rw [flatMap_properCase_words halpha, hkept, List.cons.injEq, and_iff_right rfl,
        recased_append_eq_iff hcs, recased_flatten_eq_iff hws, isAsciiUpper_getLastD hcs,
        ← hinitial, List.isChain_cons]

/-- A name in camel case that is converted to it once more. Its first letter is small, so that the
first word counts as no single capital letter. -/
theorem camelCase_camelCase_eq_iff (name : String) :
    camelCase (camelCase name) = camelCase name ↔
      (properWords name).tail.IsChain fun v w => ¬ (isInitial v ∧ isInitial w) := by
  have hproper : ∀ w ∈ properWords name, Proper w := fun w => proper_of_mem_properWords
  have halpha := fun d => alphanumeric_camelCase name (d := d)
  have htoList : ∀ name, (camelCase name).toList = uncapitalize (pascalCase name).toList :=
    fun _ => String.toList_ofList
  rw [htoList, toList_pascalCase_eq] at halpha
  rw [← String.toList_inj, htoList, toList_pascalCase, htoList, toList_pascalCase_eq]
  cases hwords : properWords name with
  | nil => simp [words, uncapitalize]
  | cons w ws =>
    rw [hwords] at hproper halpha
    obtain ⟨hw, hws⟩ := List.forall_mem_cons.mp hproper
    cases w with
    | nil => exact hw.elim
    | cons c cs =>
      obtain ⟨hc, -, hcs⟩ := hw
      obtain ⟨hsmall, hupper, hdigit⟩ := toLower_kind hc
      have hbehind : Behind c.toLower cs := fun d hd => by rw [hdigit]; exact hcs d hd
      rw [List.flatten_cons, List.cons_append, uncapitalize, lowerChar_eq hc,
        List.singleton_append] at halpha ⊢
      rw [flatMap_properCase_words halpha, uncapitalize, lowerChar_eq (toUpper_kind hsmall).1,
        toLower_toUpper_toLower hc, List.singleton_append, List.cons.injEq, and_iff_right rfl,
        recased_append_eq_iff hbehind, recased_flatten_eq_iff hws, isAsciiUpper_getLastD hbehind,
        hupper]
      simp

/-- A name in Pascal case stays as it is when it is converted again, if and only if no two words of
one letter were neighbours. The same goes for camel case, where the first word does not count. -/
theorem converted_again_eq_iff (name : String) :
    (pascalCase (pascalCase name) = pascalCase name ↔ InitialsApart (splitWords name)) ∧
      (camelCase (camelCase name) = camelCase name ↔ InitialsApart (splitWords name).tail) := by
  constructor
  · rw [pascalCase_pascalCase_eq_iff, splitWords, initialsApart_map_iff fun w hw => hw, properWords]
  · rw [camelCase_camelCase_eq_iff, splitWords, ← List.map_tail,
      initialsApart_map_iff fun w hw => List.mem_of_mem_tail hw, properWords, List.map_tail]

/-- The coordinates of a point become one word, in either case. -/
theorem exists_converted_again_ne :
    pascalCase "point-x-y" = "PointXY" ∧ pascalCase "PointXY" = "PointXy" ∧
      camelCase "point-x-y" = "pointXY" ∧ camelCase "pointXY" = "pointXy" ∧
      ¬ ∀ name, pascalCase (pascalCase name) = pascalCase name ∧
        camelCase (camelCase name) = camelCase name := by
  have hpascal : pascalCase "point-x-y" = "PointXY" := by decide +kernel
  have hagain : pascalCase "PointXY" = "PointXy" := by decide +kernel
  refine ⟨hpascal, hagain, by decide +kernel, by decide +kernel, fun h => ?_⟩
  have hsame := (h "point-x-y").1
  rw [hpascal, hagain] at hsame
  exact absurd hsame (by decide)

end Naming

end ClientGen
