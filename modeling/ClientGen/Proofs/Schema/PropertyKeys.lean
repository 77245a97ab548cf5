import ClientGen.Proofs.Endpoint.TemplateLiteral
import ClientGen.Schema.TypeExpr

/-!
# Keys of properties

The key of a property in generated code is an identifier or a literal between single quotes. Read as
code, it stands on one line and denotes the name of the property, unless the name has a carriage
return or is an identifier with a line feed behind it.

* `Units.ofText_injective`: a text can be read back from its units.
* `StringLiteral.value?`: the value of a literal in single quotes.
* `PropertyKey.Denotes`: the names that a key denotes.
* `StringLiteral.value?_quote`: what the literal for a text comes to.
* `PropertyKey.denotes_iff_keyable`: the names that have a good key. No two names share one.
-/

namespace ClientGen

/-! ## Units of a text -/

/-- A list can be read back from what its elements are written as, one after another, if the first
of them can. -/
theorem flatMap_injective {α β : Type} {f : α → List β} (hne : ∀ a, f a ≠ [])
    (hfirst : ∀ {a b us vs}, f a ++ us = f b ++ vs → a = b ∧ us = vs) :
    Function.Injective fun as => List.flatMap f as := by
  intro as bs h
  induction as generalizing bs with
  | nil =>
    cases bs with
    | nil => rfl
    | cons b bs => exact absurd (List.append_eq_nil_iff.mp h.symm).1 (hne b)
  | cons a as ih =>
    cases bs with
    | nil => exact absurd (List.append_eq_nil_iff.mp h).1 (hne a)
    | cons b bs =>
      obtain ⟨rfl, hrest⟩ := hfirst h
      rw [ih hrest]

namespace Units

/-- The first character of a text can be read back from the units. -/
theorem ofChar_append_inj {c d : Char} {us vs : List Nat} (h : ofChar c ++ us = ofChar d ++ vs) :
    c = d ∧ us = vs := by
  have hc : c.toNat < 0xd800 ∨ 0xdfff < c.toNat ∧ c.toNat < 0x110000 := c.valid
  have hd : d.toNat < 0xd800 ∨ 0xdfff < d.toNat ∧ d.toNat < 0x110000 := d.valid
  unfold ofChar Surrogate.halves at h
  split at h <;> split at h
  · obtain ⟨hunit, hrest⟩ := List.cons.inj h
    exact ⟨Char.toNat_inj.mp hunit, hrest⟩
  · -- The halves of pairs are no characters.
    have hunit := (List.cons.inj h).1
    dsimp only at hunit
    omega
  · have hunit := (List.cons.inj h).1
    dsimp only at hunit
    omega
  · obtain ⟨hhigh, hrest⟩ := List.cons.inj h
    obtain ⟨hlow, hrest⟩ := List.cons.inj hrest
    dsimp only at hhigh hlow
    exact ⟨Char.toNat_inj.mp (by omega), hrest⟩

/-- A text can be read back from its units. -/
theorem ofText_injective : Function.Injective ofText :=
  flatMap_injective ofChar_ne_nil ofChar_append_inj

end Units

/-! ## Literals in single quotes -/

namespace StringLiteral

open TemplateLiteral

/-- The value of a literal from somewhere behind its opening quote on, if the closing quote is the
end of the text. The first argument counts the characters that still belong to the escape that was
read last. -/
def valueFrom : Nat → List Char → Option (List Nat)
  | _, [] => none
  | skip + 1, _ :: cs => valueFrom skip cs
  | 0, c :: cs =>
    if c = '\'' then if cs.isEmpty then some [] else none
    else if c = '\\' then
      (escape? cs).bind fun (units, length) => (valueFrom length cs).map (units ++ ·)
    else if c = '\n' || c = '\r' then none
    else (valueFrom 0 cs).map (Units.ofChar c ++ ·)

/-- The value of a literal in single quotes, if the text is one. -/
def value? : List Char → Option (List Nat)
  | [] => none
  | c :: cs => if c = '\'' then valueFrom 0 cs else none

/-- A character between single quotes comes to itself. Only a carriage return cannot stand there. -/
theorem valueFrom_quotedChar (c : Char) (rest : List Char) :
    valueFrom 0 (quotedChar c ++ rest)
      = if c = '\r' then none else (valueFrom 0 rest).map (Units.ofChar c ++ ·) := by
  unfold quotedChar
  -- The backslash, the quote and the line feed are written as escapes and read back.
  by_cases hslash : c = '\\'
  · subst hslash
    have hescape : escape? ('\\' :: rest) = some (Units.ofChar '\\', 1) := rfl
    simp [valueFrom, hescape]
  by_cases hquote : c = '\''
  · subst hquote
    have hescape : escape? ('\'' :: rest) = some (Units.ofChar '\'', 1) := rfl
    simp [valueFrom, hescape]
  by_cases hfeed : c = '\n'
  · subst hfeed
    have hescape : escape? ('n' :: rest) = some (Units.ofChar '\n', 1) := rfl
    simp [valueFrom, hescape]
  simp [hslash, hquote, hfeed, valueFrom]

/-- A quoted text comes to itself, unless a return is in it: that would end the line. -/
theorem valueFrom_quotedChars (cs : List Char) :
    valueFrom 0 (cs.flatMap quotedChar ++ ['\''])
      = if '\r' ∈ cs then none else some (Units.ofText cs) := by
  induction cs with
  | nil => rfl
  | cons c cs ih =>
    rw [List.flatMap_cons, List.append_assoc, valueFrom_quotedChar, ih]
    by_cases hc : c = '\r'
    · simp [hc]
    · by_cases hcs : '\r' ∈ cs <;> simp [hc, Ne.symm hc, hcs, Units.ofText_cons]

theorem toList_quote (s : String) :
    (quote s).toList = '\'' :: (s.toList.flatMap quotedChar ++ ['\'']) := by
  simp [quote]

/-- The literal for a text comes to the text, unless there is a carriage return in it. -/
theorem value?_quote (s : String) :
    value? (quote s).toList = if '\r' ∈ s.toList then none else some (Units.ofText s.toList) := by
  rw [toList_quote, value?, if_pos rfl, valueFrom_quotedChars]

/-- The literal for a text is on one line unless the text has a carriage return. -/
theorem mem_quote_iff (s : String) :
    '\n' ∉ (quote s).toList ∧ ('\r' ∈ (quote s).toList ↔ '\r' ∈ s.toList) := by
  have hfeed : ∀ c, '\n' ∉ quotedChar c := by
    intro c
    unfold quotedChar
    split_ifs <;> simp_all [eq_comm]
  have hreturn : ∀ c, '\r' ∈ quotedChar c ↔ '\r' = c := by
    intro c
    unfold quotedChar
    split_ifs <;> simp_all
  rw [toList_quote]
  simp [hfeed, hreturn]

/-- The first character of a text can be read back from the literal. -/
theorem quotedChar_append_inj {c d : Char} {us vs : List Char}
    (h : quotedChar c ++ us = quotedChar d ++ vs) : c = d ∧ us = vs := by
  unfold quotedChar at h
  split_ifs at h <;> grind

/-- Different texts have different literals. -/
theorem quote_injective : Function.Injective quote := by
  have hne : ∀ c, quotedChar c ≠ [] := by
    intro c
    unfold quotedChar
    split_ifs <;> exact List.cons_ne_nil _ _
  intro s t h
  have hchars := congrArg String.toList h
  rw [toList_quote, toList_quote, List.cons.injEq] at hchars
  exact String.toList_inj.mp
    (flatMap_injective hne quotedChar_append_inj (List.append_cancel_right hchars.2))

end StringLiteral

/-! ## Identifiers -/

namespace Naming

/-- The characters behind the first one of an identifier can stand anywhere in it. -/
theorem isIdentifierPart_of_mem {cs : List Char} (h : isIdentifierText cs) {c : Char}
    (hc : c ∈ cs) : isIdentifierPart c := by
  cases cs with
  | nil => exact absurd hc List.not_mem_nil
  | cons d cs =>
    obtain ⟨hd, hcs⟩ := Bool.and_eq_true_iff.mp h
    rcases List.mem_cons.mp hc with rfl | hc
    · rw [isIdentifierPart, hd, Bool.true_or]
    · exact List.all_eq_true.mp hcs c hc

/-- No identifier starts with a quote. -/
theorem head?_ne_quote {cs : List Char} (h : isIdentifierText cs) : cs.head? ≠ some '\'' := by
  intro hhead
  obtain ⟨rest, rfl⟩ := List.head?_eq_some_iff.mp hhead
  exact absurd (isIdentifierPart_of_mem h List.mem_cons_self) (by decide)

/-- A name counts as an identifier if it is one or has a line feed behind one. -/
theorem isIdentifier_iff (name : String) : isIdentifier name ↔ isIdentifierText name.toList ∨
    ∃ stem, isIdentifierText stem ∧ name.toList = stem ++ ['\n'] := by
  -- The pattern also ends in front of a final line feed.
  rw [isIdentifier]
  split
  · rename_i hlast
    obtain ⟨stem, hname⟩ := List.getLast?_eq_some_iff.mp hlast
    rw [hname, List.dropLast_concat]
    have hfeed : ¬ isIdentifierText (stem ++ ['\n']) := fun h =>
      absurd (isIdentifierPart_of_mem h (List.mem_append_right _ (List.mem_singleton_self _)))
        (by decide)
    constructor
    · exact fun h => .inr ⟨stem, h, rfl⟩
    · rintro (h | ⟨stem', h, heq⟩)
      · exact absurd h hfeed
      · rwa [List.append_cancel_right heq]
  · rename_i hlast
    refine ⟨.inl, ?_⟩
    rintro (h | ⟨stem, -, hname⟩)
    · exact h
    · exact absurd (by rw [hname, List.getLast?_concat]) hlast

/-- An identifier does not begin with a quote. -/
theorem head?_ne_quote_of_isIdentifier {name : String} (h : isIdentifier name) :
    name.toList.head? ≠ some '\'' := by
  rcases (isIdentifier_iff name).mp h with h | ⟨stem, hstem, hname⟩
  · exact head?_ne_quote h
  · have hne : stem ≠ [] := by
      rintro rfl
      cases hstem
    rw [hname, List.head?_append_of_ne_nil _ hne]
    exact head?_ne_quote hstem

end Naming

/-! ## Keys -/

namespace PropertyKey

open Naming

/-- The key stands on one line. -/
def OnOneLine (key : String) : Prop := '\n' ∉ key.toList ∧ '\r' ∉ key.toList

/-- The key denotes the name: it is an identifier and the name, or a literal that comes to the
name. -/
def Denotes (key name : String) : Prop :=
  isIdentifierText key.toList ∧ key = name ∨
    StringLiteral.value? key.toList = some (Units.ofText name.toList)

/-- A name that can stand in a key. -/
structure Keyable (name : String) : Prop where
  /-- There is no carriage return. -/
  return_not_mem : '\r' ∉ name.toList
  /-- The name is no identifier with a line feed behind it. -/
  not_closed : ¬ ∃ stem, isIdentifierText stem ∧ name.toList = stem ++ ['\n']

variable {key name : String}

/-- Every literal starts with a quote. -/
theorem value?_eq_none {cs : List Char} (h : cs.head? ≠ some '\'') :
    StringLiteral.value? cs = none := by
  cases cs with
  | nil => rfl
  | cons c cs => exact if_neg fun hc => h (congrArg some hc)

/-- An identifier is no literal. -/
theorem value?_identifier {cs : List Char} (h : isIdentifierText cs) :
    StringLiteral.value? cs = none := value?_eq_none (head?_ne_quote h)

/-- A key denotes one name only. -/
theorem Denotes.unique {other : String} (h : Denotes key name) (hother : Denotes key other) :
    other = name := by
  rcases h with ⟨hkey, rfl⟩ | hvalue
  · rcases hother with ⟨-, rfl⟩ | hother
    · rfl
    · rw [value?_identifier hkey] at hother
      cases hother
  · rcases hother with ⟨hkey, -⟩ | hother
    · rw [value?_identifier hkey] at hvalue
      cases hvalue
    · have hunits := Option.some.inj (hother.symm.trans hvalue)
      exact String.toList_inj.mp (Units.ofText_injective hunits)

/-- A key denotes exactly one name if it denotes it at all. -/
theorem forall_denotes_iff : (∀ other, Denotes key other ↔ other = name) ↔ Denotes key name :=
  ⟨fun h => (h name).mpr rfl, fun h _ => ⟨h.unique, fun heq => heq ▸ h⟩⟩

/-- The three ways in which a name becomes a key. -/
theorem propertyKey_cases (name : String) :
    (isIdentifierText name.toList ∧ propertyKey name = name) ∨
      (∃ stem, isIdentifierText stem ∧ name.toList = stem ++ ['\n'] ∧ propertyKey name = name) ∨
      (¬ isIdentifier name ∧ propertyKey name = quote name) := by
  unfold propertyKey
  split
  · rename_i h
    rcases (isIdentifier_iff name).mp h with h | ⟨stem, hstem, hname⟩
    · exact .inl ⟨h, rfl⟩
    · exact .inr (.inl ⟨stem, hstem, hname, rfl⟩)
  · rename_i h
    exact .inr (.inr ⟨h, rfl⟩)

/-- Identifiers have no line ends. -/
theorem keyable_of_identifier (h : isIdentifierText name.toList) : Keyable name where
  return_not_mem hmem := absurd (isIdentifierPart_of_mem h hmem) (by decide)
  not_closed := by
    rintro ⟨stem, -, hname⟩
    exact absurd (isIdentifierPart_of_mem h (by simp [hname] : '\n' ∈ name.toList)) (by decide)

/-- A name in quotes can stand there unless it has a carriage return. -/
theorem keyable_iff_of_not_identifier (h : ¬ isIdentifier name) :
    Keyable name ↔ '\r' ∉ name.toList :=
  ⟨Keyable.return_not_mem, fun hreturn =>
    ⟨hreturn, fun hclosed => h ((isIdentifier_iff name).mpr (.inr hclosed))⟩⟩

/-- The key for a name stands on one line exactly if the name can stand in a key. -/
theorem onOneLine_iff (name : String) : OnOneLine (propertyKey name) ↔ Keyable name := by
  rcases propertyKey_cases name with ⟨h, hkey⟩ | ⟨stem, hstem, hname, hkey⟩ | ⟨h, hkey⟩
  · have hpart : ∀ {c}, c ∈ name.toList → isIdentifierPart c := isIdentifierPart_of_mem h
    rw [hkey]
    refine iff_of_true ⟨fun hmem => ?_, fun hmem => ?_⟩ (keyable_of_identifier h)
    · exact absurd (hpart hmem) (by decide)
    · exact absurd (hpart hmem) (by decide)
  · rw [hkey]
    refine iff_of_false (fun hline => hline.1 ?_) fun hgood => hgood.not_closed ⟨stem, hstem, hname⟩
    rw [hname]
    exact List.mem_append_right _ (List.mem_singleton_self _)
  · obtain ⟨hfeed, hreturn⟩ := StringLiteral.mem_quote_iff name
    rw [hkey, keyable_iff_of_not_identifier h, OnOneLine, and_iff_right hfeed, hreturn]

/-- The key for a name denotes it exactly if the name can stand in a key. -/
theorem denotes_iff (name : String) : Denotes (propertyKey name) name ↔ Keyable name := by
  rcases propertyKey_cases name with ⟨h, hkey⟩ | ⟨stem, hstem, hname, hkey⟩ | ⟨h, hkey⟩
  · exact iff_of_true (.inl ⟨by rwa [hkey], hkey⟩) (keyable_of_identifier h)
  · -- The line feed belongs to no identifier, and what stands in front of it opens no literal.
    refine iff_of_false ?_ fun hgood => hgood.not_closed ⟨stem, hstem, hname⟩
    rw [hkey]
    rintro (⟨hident, -⟩ | hvalue)
    · exact (keyable_of_identifier hident).not_closed ⟨stem, hstem, hname⟩
    · rw [value?_eq_none (head?_ne_quote_of_isIdentifier
        ((isIdentifier_iff name).mpr (.inr ⟨stem, hstem, hname⟩)))] at hvalue
      cases hvalue
  · have hquoted : ¬ isIdentifierText (quote name).toList := fun hident =>
      head?_ne_quote hident (by rw [StringLiteral.toList_quote, List.head?_cons])
    rw [hkey, keyable_iff_of_not_identifier h, Denotes, StringLiteral.value?_quote]
    by_cases hreturn : '\r' ∈ name.toList <;> simp [hquoted, hreturn]

/-- Different names have different keys. -/
theorem propertyKey_injective : Function.Injective propertyKey := by
  have hquote : ∀ {a b : String}, isIdentifier a → a ≠ quote b := by
    rintro _ b h rfl
    exact head?_ne_quote_of_isIdentifier h (by rw [StringLiteral.toList_quote, List.head?_cons])
  intro a b h
  unfold propertyKey at h
  split at h <;> split at h
  · exact h
  · exact absurd h (hquote ‹_›)
  · exact absurd h.symm (hquote ‹_›)
  · exact StringLiteral.quote_injective h

/-- The key of a property stands on one line if and only if its name has no carriage return and is
no identifier with a line feed behind it, and exactly then it denotes this name and no other. Two
names never share a key. -/
theorem denotes_iff_keyable (name : String) :
    (OnOneLine (propertyKey name) ↔ Keyable name) ∧
      ((∀ other, Denotes (propertyKey name) other ↔ other = name) ↔ Keyable name) ∧
      ∀ other, propertyKey other = propertyKey name → other = name :=
  ⟨onOneLine_iff name, forall_denotes_iff.trans (denotes_iff name),
    fun _ h => propertyKey_injective h⟩

/-- Names that spoil their keys: an identifier with a line feed behind it is left without quotes,
and a carriage return stays as it is inside of them. -/
theorem exists_key_on_two_lines :
    propertyKey "id\n" = "id\n" ∧ propertyKey "a\rb" = "'a\rb'" ∧
      ¬ ∀ name, OnOneLine (propertyKey name) ∧
        ∀ other, Denotes (propertyKey name) other ↔ other = name := by
  have hfeed : propertyKey "id\n" = "id\n" := by decide +kernel
  refine ⟨hfeed, by decide +kernel, fun h => ?_⟩
  have hline := (h "id\n").1.1
  rw [hfeed] at hline
  exact absurd hline (by decide)

end PropertyKey

end ClientGen
