import ClientGen.Proofs.Naming.Words

/-!
# The alphabet of names

Names in Pascal and camel case consist of ASCII letters and digits, whatever they come from.

* `Naming.alphanumeric_pascalCase`, `Naming.alphanumeric_camelCase`: the two cases.
* `Naming.IsInterfaceName`: the names of interfaces, and what they are made of.
-/

namespace ClientGen

namespace Text

variable {c d : Char}

/-- A letter or digit stays one at the beginning of a word. -/
theorem alphanumeric_titleChar (h : isAsciiAlphanumeric c) (hd : d ∈ titleChar c) :
    isAsciiAlphanumeric d := by
  have hall : ∀ n < 128, isAsciiAlphanumeric (Char.ofNat n) →
      (titleChar (Char.ofNat n)).all isAsciiAlphanumeric := by decide +kernel
  have hc := of_ascii (p := fun c => isAsciiAlphanumeric c → (titleChar c).all isAsciiAlphanumeric)
    hall (toNat_lt_of_isAsciiAlphanumeric h) h
  exact List.all_eq_true.mp hc d hd

/-- A letter or digit stays one in lower case. -/
theorem alphanumeric_lowerChar (h : isAsciiAlphanumeric c) (hd : d ∈ lowerChar c) :
    isAsciiAlphanumeric d := by
  have hall : ∀ n < 128, isAsciiAlphanumeric (Char.ofNat n) →
      (lowerChar (Char.ofNat n)).all isAsciiAlphanumeric := by decide +kernel
  have hc := of_ascii (p := fun c => isAsciiAlphanumeric c → (lowerChar c).all isAsciiAlphanumeric)
    hall (toNat_lt_of_isAsciiAlphanumeric h) h
  exact List.all_eq_true.mp hc d hd

/-- The small letters of letters and digits are letters and digits. -/
theorem alphanumeric_lowerAfter {before cs : List Char} (h : ∀ c ∈ cs, isAsciiAlphanumeric c)
    (hd : d ∈ lowerAfter before cs) : isAsciiAlphanumeric d := by
  induction cs generalizing before with
  | nil => simp [lowerAfter] at hd
  | cons c cs ih =>
    have hc := h c List.mem_cons_self
    -- The sigma is no ASCII letter.
    have hsigma : c ≠ 'Σ' := by
      rintro rfl
      exact absurd hc (by decide)
    rw [lowerAfter, if_neg hsigma, List.mem_append] at hd
    rcases hd with hd | hd
    · exact alphanumeric_lowerChar hc hd
    · exact ih (fun d hd => h d (List.mem_cons_of_mem _ hd)) hd

/-- A word of letters and digits in its proper case has letters and digits only. -/
theorem alphanumeric_properCase {cs : List Char} (h : ∀ c ∈ cs, isAsciiAlphanumeric c)
    (hd : d ∈ properCase cs) : isAsciiAlphanumeric d := by
  cases cs with
  | nil => simp [properCase] at hd
  | cons c cs =>
    rw [properCase, List.mem_append] at hd
    rcases hd with hd | hd
    · exact alphanumeric_titleChar (h c List.mem_cons_self) hd
    · exact alphanumeric_lowerAfter (fun d hd => h d (List.mem_cons_of_mem _ hd)) hd

/-- A text of letters and digits with a small first letter has letters and digits only. -/
theorem alphanumeric_uncapitalize {cs : List Char} (h : ∀ c ∈ cs, isAsciiAlphanumeric c)
    (hd : d ∈ uncapitalize cs) : isAsciiAlphanumeric d := by
  cases cs with
  | nil => simp [uncapitalize] at hd
  | cons c cs =>
    rw [uncapitalize, List.mem_append] at hd
    rcases hd with hd | hd
    · exact alphanumeric_lowerChar (h c List.mem_cons_self) hd
    · exact h d (List.mem_cons_of_mem _ hd)

theorem uncapitalize_ne_nil {cs : List Char} (h : ∀ c ∈ cs, isAsciiAlphanumeric c)
    (hne : cs ≠ []) : uncapitalize cs ≠ [] := by
  cases cs with
  | nil => exact absurd rfl hne
  | cons c cs =>
    have hc := toNat_lt_of_isAsciiAlphanumeric (h c List.mem_cons_self)
    rw [uncapitalize, lowerChar, if_pos hc]
    exact List.cons_ne_nil _ _

end Text

namespace Naming

open Text

/-- A name in Pascal case consists of ASCII letters and digits. -/
theorem alphanumeric_pascalCase (name : String) {d : Char} (hd : d ∈ (pascalCase name).toList) :
    isAsciiAlphanumeric d := by
  rw [toList_pascalCase, List.mem_flatMap] at hd
  obtain ⟨w, hw, hd⟩ := hd
  refine alphanumeric_properCase (fun c hc => ?_) hd
  have hmem : c ∈ (words name.toList).flatten := List.mem_flatten.mpr ⟨w, hw, hc⟩
  rw [flatten_words] at hmem
  exact (List.mem_filter.mp hmem).2

/-- A name in camel case consists of ASCII letters and digits. -/
theorem alphanumeric_camelCase (name : String) {d : Char} (hd : d ∈ (camelCase name).toList) :
    isAsciiAlphanumeric d := by
  rw [camelCase, String.toList_ofList] at hd
  exact alphanumeric_uncapitalize (fun c hc => alphanumeric_pascalCase name hc) hd

/-- Something is left of a name with a letter or digit. -/
theorem camelCase_ne_empty {name : String} (h : ∃ c ∈ name.toList, isAsciiAlphanumeric c) :
    camelCase name ≠ "" := by
  obtain ⟨c, hc, halpha⟩ := h
  have hpascal : (pascalCase name).toList ≠ [] := by
    intro hnil
    have hlength := length_pascalCase name
    rw [← String.length_toList, hnil] at hlength
    have hnone := List.filter_eq_nil_iff.mp (List.length_eq_zero_iff.mp hlength.symm) c hc
    exact hnone halpha
  intro hempty
  refine uncapitalize_ne_nil (fun _ hd => alphanumeric_pascalCase name hd) hpascal ?_
  simpa [camelCase] using hempty

/-- What comes behind the base in the names of interfaces. -/
def suffixes : List String := ["", "Request", "Response", "Params"]

/-- The names that interfaces get. -/
def IsInterfaceName (name : String) : Prop :=
  ∃ base, ∃ suffix ∈ suffixes, name = interfaceName base suffix

/-- A name without a suffix is an interface name. -/
theorem isInterfaceName_plain (base : String) : IsInterfaceName (interfaceName base "") :=
  ⟨base, "", by simp [suffixes], rfl⟩

/-- An interface name is a capital I, with ASCII letters and digits behind it. -/
theorem IsInterfaceName.exists_toList {name : String} (h : IsInterfaceName name) :
    ∃ cs, name.toList = 'I' :: cs ∧ ∀ c ∈ cs, isAsciiAlphanumeric c := by
  obtain ⟨base, suffix, hsuffix, rfl⟩ := h
  refine ⟨(pascalCase base).toList ++ suffix.toList, by simp [interfaceName], fun c hc => ?_⟩
  have hall : suffixes.all fun suffix => suffix.toList.all isAsciiAlphanumeric := by decide
  rcases List.mem_append.mp hc with hc | hc
  · exact alphanumeric_pascalCase base hc
  · exact List.all_eq_true.mp (List.all_eq_true.mp hall suffix hsuffix) c hc

end Naming

end ClientGen
