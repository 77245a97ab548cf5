import ClientGen.Model.Module
import ClientGen.Proofs.Expansion.Formed

/-!
# Used names in the text of declarations

What a module uses is found again in the text of its declarations. A used name stands there between
characters that are part of no word; it is found if the letter behind its `I` is a capital.

* `Text.Stands`, `Text.Enclosed`: a word in a text, with nothing of a word on either side.
* `TypeExpr.Formed.stands`, `Declaration.Formed.enclosed`: the used names stand in the texts.
* `interfaceNames_of_enclosed`, `hasCapital_of_mem_interfaceNames`: which names are found.
-/

namespace ClientGen

namespace Text

/-- A character that ends a name and shows that it is no key. -/
def endsName (c : Char) : Bool := !isWordChar c && c != ':' && c != '?'

/-- The word stands in the text: no word goes on before it, and behind it the text is at its end or
goes on with a character that ends a name. -/
def Stands (word cs : List Char) : Prop :=
  ∃ before after, cs = before ++ word ++ after ∧
    (∀ c ∈ before.getLast?, isWordChar c = false) ∧ ∀ c ∈ after.head?, endsName c

/-- The word stands in the text and at neither end of it. -/
def Enclosed (word cs : List Char) : Prop :=
  ∃ before a b after, cs = before ++ a :: (word ++ b :: after) ∧ isWordChar a = false ∧ endsName b

variable {word cs : List Char} {a b : Char}

theorem stands_self (word : List Char) : Stands word word :=
  ⟨[], [], by simp⟩

/-- A word stays where it stands when the text is continued on both sides. -/
theorem Stands.append (h : Stands word cs) (before after : List Char)
    (hbefore : ∀ c ∈ before.getLast?, isWordChar c = false)
    (hafter : ∀ c ∈ after.head?, endsName c) : Stands word (before ++ cs ++ after) := by
  obtain ⟨before', after', rfl, hbefore', hafter'⟩ := h
  refine ⟨before ++ before', after' ++ after, by simp, fun c hc => ?_, fun c hc => ?_⟩
  · rw [List.getLast?_append] at hc
    cases hl : before'.getLast? with
    | none => exact hbefore c (by simpa [hl] using hc)
    | some d => exact hbefore' c (by simpa [hl] using hc)
  · rw [List.head?_append] at hc
    cases hl : after'.head? with
    | none => exact hafter c (by simpa [hl] using hc)
    | some d => exact hafter' c (by simpa [hl] using hc)

/-- A word that stands in a text is enclosed when the text is put between two characters. -/
theorem Stands.enclosed (h : Stands word cs) (ha : isWordChar a = false) (hb : endsName b) :
    Enclosed word (a :: (cs ++ [b])) := by
  obtain ⟨before, after, rfl, hbefore, hafter⟩ := h
  -- The neighbours are the given characters where the text has none.
  obtain ⟨before', a', hl, ha'⟩ : ∃ before' a', a :: before = before' ++ [a'] ∧
      isWordChar a' = false := by
    rcases List.eq_nil_or_concat before with rfl | ⟨front, c, rfl⟩
    · exact ⟨[], a, rfl, ha⟩
    · exact ⟨a :: front, c, by simp, hbefore c (by simp)⟩
  obtain ⟨b', after', hr, hb'⟩ : ∃ b' after', after ++ [b] = b' :: after' ∧ endsName b' := by
    cases after with
    | nil => exact ⟨b, [], rfl, hb⟩
    | cons c after => exact ⟨c, after ++ [b], rfl, hafter c (by simp)⟩
  refine ⟨before', a', b', after', ?_, ha', hb'⟩
  calc a :: (before ++ word ++ after ++ [b])
    _ = (a :: before) ++ (word ++ (after ++ [b])) := by simp
    _ = before' ++ a' :: (word ++ b' :: after') := by rw [hl, hr]; simp

/-- An enclosed word stays enclosed in a longer text. -/
theorem Enclosed.append (h : Enclosed word cs) (before after : List Char) :
    Enclosed word (before ++ cs ++ after) := by
  obtain ⟨before', a, b, after', rfl, ha, hb⟩ := h
  exact ⟨before ++ before', a, b, after' ++ after, by simp, ha, hb⟩

/-- A word enclosed in one of some texts is enclosed in all of them together. -/
theorem Enclosed.flatten {parts : List (List Char)} (h : Enclosed word cs) (hmem : cs ∈ parts) :
    Enclosed word parts.flatten := by
  obtain ⟨before, after, rfl⟩ := List.append_of_mem hmem
  have hparts : (before ++ cs :: after).flatten = before.flatten ++ cs ++ after.flatten := by simp
  rw [hparts]
  exact h.append _ _

end Text

open Text

/-! ## Names in types -/

/-- The text between two characters of a joined list: what is before and after one of its items. -/
theorem exists_intercalate_split (sep : String) {texts : List String} {text : String}
    (h : text ∈ texts) :
    ∃ before after, (sep.intercalate texts).toList = before ++ text.toList ++ after ∧
      (before = [] ∨ ∃ front, before = front ++ sep.toList) ∧
      (after = [] ∨ ∃ back, after = sep.toList ++ back) := by
  induction texts with
  | nil => simp at h
  | cons first rest ih =>
    rcases rest with _ | ⟨second, rest⟩
    · obtain rfl : text = first := by simpa using h
      exact ⟨[], [], by simp, .inl rfl, .inl rfl⟩
    · -- The first text has the separator behind it, the others in front of them.
      have hjoin : (sep.intercalate (first :: second :: rest)).toList
          = first.toList ++ sep.toList ++ (sep.intercalate (second :: rest)).toList := by
        simp [String.toList_intercalate]
      rcases List.mem_cons.mp h with rfl | h
      · exact ⟨[], sep.toList ++ (sep.intercalate (second :: rest)).toList,
          by rw [hjoin, List.nil_append, List.append_assoc], .inl rfl, .inr ⟨_, rfl⟩⟩
      · obtain ⟨before, after, htext, hbefore, hafter⟩ := ih h
        refine ⟨first.toList ++ sep.toList ++ before, after, by rw [hjoin, htext]; simp,
          .inr ?_, hafter⟩
        rcases hbefore with rfl | ⟨front, rfl⟩
        · exact ⟨first.toList, by simp⟩
        · exact ⟨first.toList ++ sep.toList ++ front, by simp⟩

/-- A word stands in a list of texts with other characters between them. -/
theorem Text.Stands.intercalate {text : String} {texts : List String} {word : List Char}
    (h : Stands word text.toList) (sep : String) (hfirst : sep.toList.head?.any endsName)
    (hlast : sep.toList.getLast?.any fun c => !isWordChar c) (hmem : text ∈ texts) :
    Stands word (sep.intercalate texts).toList := by
  obtain ⟨before, after, htext, hbefore, hafter⟩ := exists_intercalate_split sep hmem
  obtain ⟨first, hhead, hends⟩ := (Option.any_eq_true _ _).mp hfirst
  obtain ⟨last, hgetLast, hnone⟩ := (Option.any_eq_true _ _).mp hlast
  rw [htext]
  refine h.append _ _ (fun c hc => ?_) fun c hc => ?_
  · rcases hbefore with rfl | ⟨front, rfl⟩
    · simp at hc
    · obtain rfl : last = c := by simpa [hgetLast] using hc
      simpa using hnone
  · rcases hafter with rfl | ⟨back, rfl⟩
    · simp at hc
    · obtain rfl : first = c := by simpa [hhead] using hc
      exact hends

/-- A word keeps its place behind a text that ends with no part of a word. -/
theorem Text.Stands.behind {text : String} {word : List Char} (h : Stands word text.toList)
    (front opening : String) (hlast : opening.toList.getLast?.any fun c => !isWordChar c) :
    Stands word (front ++ opening ++ text).toList := by
  obtain ⟨last, hgetLast, hnone⟩ := (Option.any_eq_true _ _).mp hlast
  have happend := h.append (front ++ opening).toList [] (fun c hc => ?_) (by simp)
  · rwa [List.append_nil, ← String.toList_append] at happend
  · obtain rfl : last = c := by simpa [hgetLast] using hc
    simpa using hnone

/-- A word keeps its place in front of a text that starts with a character that ends names. -/
theorem Text.Stands.in_front {text : String} {word : List Char} (h : Stands word text.toList)
    (closing : String) (hfirst : closing.toList.head?.any endsName) :
    Stands word (text ++ closing).toList := by
  obtain ⟨first, hhead, hends⟩ := (Option.any_eq_true _ _).mp hfirst
  have happend := h.append [] closing.toList (by simp) (fun c hc => ?_)
  · rwa [List.nil_append, ← String.toList_append] at happend
  · obtain rfl : first = c := by simpa [hhead] using hc
    exact hends

namespace TypeExpr

/-- A name that a type uses stands in its text. -/
theorem Formed.stands {t : TypeExpr} (h : t.Formed) {n : String} (hn : n ∈ t.names) :
    Stands n.toList t.text.toList := by
  induction h with
  | any => simp [names] at hn
  | basic _ => simp [names] at hn
  | value _ => simp [names] at hn
  | named base =>
    obtain rfl : n = Naming.interfaceName base "" := by simpa [names] using hn
    exact stands_self _
  | @union members _ ih =>
    obtain ⟨m, hm, hnm⟩ := mem_namesOf.mp hn
    rw [text, texts_eq_map]
    exact (ih m hm hnm).intercalate bar rfl rfl (List.mem_map_of_mem hm)
  | @array item _ ih =>
    -- Parentheses and brackets are no part of a name.
    have hparenthesized : Stands n.toList (parenthesized item.text).toList := by
      unfold parenthesized
      split
      · have hin := (ih hn).append ['('] [')'] (by simp; decide) (by simp; decide)
        simpa using hin
      · exact ih hn
    have hlist := hparenthesized.append [] ['[', ']'] (by simp) (by simp; decide)
    rw [text]
    simpa using hlist
  | @record value _ ih =>
    have hrecord := (ih hn).append "Record<string, ".toList ['>'] (by simp; decide)
      (by simp; decide)
    rw [text]
    simpa using hrecord

end TypeExpr

/-- The text of a property ends its type with a semicolon. -/
theorem Property.enclosed {p : Property} (h : p.type.Formed) {n : String} (hn : n ∈ p.type.names) :
    Enclosed n.toList p.text.toList := by
  have hin := (h.stands hn).enclosed (a := ' ') (b := ';') rfl rfl
  have hmore := hin.append ((p.comment.text "  " ++ "  " ++ propertyKey p.name
    ++ (if p.optional then "?" else "") ++ ":").toList) ['\n']
  rw [Property.text]
  simpa using hmore

namespace Declaration

/-- A name that a declaration uses is enclosed in its text. -/
theorem Formed.enclosed {d : Declaration} (h : d.Formed) {n : String} (hn : n ∈ d.uses) :
    Enclosed n.toList d.content.toList := by
  have htypes := h.types
  unfold uses at hn
  unfold content
  cases hbody : d.body with
  | properties ps =>
    simp only [hbody] at hn
    simp only [Declaration.types, hbody] at htypes
    obtain ⟨p, hp, hnp⟩ := List.mem_flatMap.mp hn
    have hproperty := Property.enclosed (htypes _ (List.mem_map_of_mem hp)) hnp
    have hall : Enclosed n.toList (String.join (ps.map Property.text)).toList := by
      rw [String.toList_join, List.flatMap_map]
      exact hproperty.flatten (List.mem_map.mpr ⟨p, hp, rfl⟩)
    have hmore := hall.append
      ((d.comment.text "" ++ "export interface " ++ d.name ++ " \x7b\n").toList) "\x7d\n".toList
    simpa using hmore
  | anything => simp [hbody] at hn
  | «alias» type =>
    simp only [hbody] at hn
    simp only [Declaration.types, hbody] at htypes
    have hin := ((htypes type (by simp)).stands hn).enclosed (a := ' ') (b := ';') rfl rfl
    have hmore := hin.append ((d.comment.text "" ++ "export type " ++ d.name ++ " =").toList) ['\n']
    simpa using hmore

end Declaration

/-! ## Names that are found -/

/-- The character behind the first one is a capital of ASCII. -/
def HasCapital (name : String) : Prop :=
  ∃ first second rest, name.toList = first :: second :: rest ∧ isAsciiUpper second

/-- An interface name with a capital is recognised where a character follows that ends it. -/
theorem interfaceNameAt?_append {name : String} (hname : Naming.IsInterfaceName name)
    (hcapital : HasCapital name) {b : Char} (hb : endsName b) (after : List Char) :
    interfaceNameAt? (name.toList ++ b :: after) = some name.toList := by
  obtain ⟨cs, hcs, halpha⟩ := hname.exists_toList
  obtain ⟨first, second, rest, hname', hupper⟩ := hcapital
  rw [hcs] at hname' ⊢
  obtain ⟨rfl, rfl⟩ : first = 'I' ∧ cs = second :: rest := by
    simpa [eq_comm] using hname'
  simp only [endsName, Bool.and_eq_true, Bool.not_eq_true', bne_iff_ne] at hb
  have hstop : (isAsciiAlphanumeric b || b == '_') = false := by
    refine Bool.eq_false_iff.mpr fun h => ?_
    rw [isWordChar_of_alphanumeric h] at hb
    simp at hb
  have htake : (rest ++ b :: after).takeWhile (fun d => isAsciiAlphanumeric d || d == '_')
      = rest := by
    rw [List.takeWhile_append_of_pos fun d hd => by simp [halpha d (List.mem_cons_of_mem _ hd)],
      List.takeWhile_cons, hstop]
    simp
  rw [interfaceNameAt?.eq_def]
  simp only [List.cons_append, hupper, if_true, htake, List.drop_left]
  -- What follows is neither a colon nor a question mark nor part of a word.
  split
  · rename_i h
    exact absurd (List.cons.inj h).1 hb.1.2
  · rename_i h
    exact absurd (List.cons.inj h).1 hb.2
  · rename_i h
    simp at h
  · rename_i d _ _ _ h
    obtain ⟨rfl, -⟩ := List.cons.inj h
    simp [hb.1.1]

/-- An enclosed interface name with a capital is found. -/
theorem interfaceNames_of_enclosed {text name : String} (h : Enclosed name.toList text.toList)
    (hname : Naming.IsInterfaceName name) (hcapital : HasCapital name) :
    name ∈ interfaceNames text := by
  obtain ⟨before, a, b, after, htext, ha, hb⟩ := h
  rw [interfaceNames, htext]
  clear htext
  -- What comes before only adds names.
  have hlater : ∀ (inWord : Bool) (c : Char) (cs : List Char),
      name ∈ interfaceNamesFrom (isWordChar c) cs → name ∈ interfaceNamesFrom inWord (c :: cs) := by
    intro inWord c cs hmem
    rw [interfaceNamesFrom]
    split
    · exact hmem
    · split
      · exact List.mem_cons_of_mem _ hmem
      · exact hmem
  generalize false = inWord
  induction before generalizing inWord with
  | nil =>
    refine hlater inWord a _ ?_
    obtain ⟨cs, hcs, -⟩ := hname.exists_toList
    have hat := interfaceNameAt?_append hname hcapital hb after
    rw [ha, hcs, List.cons_append, interfaceNamesFrom]
    rw [hcs, List.cons_append] at hat
    simp [hat, ← hcs]
  | cons c before ih => exact hlater inWord c _ (ih _)

/-- Only names with a capital are found. -/
theorem hasCapital_of_mem_interfaceNames {text name : String} (h : name ∈ interfaceNames text) :
    HasCapital name := by
  -- The scan takes a name only with a capital behind its `I`.
  have hat : ∀ {cs found : List Char}, interfaceNameAt? cs = some found →
      ∃ second rest, found = 'I' :: second :: rest ∧ isAsciiUpper second := by
    intro cs found hfound
    rw [interfaceNameAt?.eq_def] at hfound
    split at hfound
    · rename_i c rest
      dsimp only at hfound
      split at hfound
      · rename_i hupper
        split at hfound
        · simp at hfound
        · simp at hfound
        · exact ⟨c, _, (Option.some.inj hfound).symm, hupper⟩
        · split at hfound
          · simp at hfound
          · exact ⟨c, _, (Option.some.inj hfound).symm, hupper⟩
      · simp at hfound
    · simp at hfound
  rw [interfaceNames] at h
  generalize false = inWord at h
  generalize text.toList = cs at h
  induction cs generalizing inWord with
  | nil => simp [interfaceNamesFrom] at h
  | cons c cs ih =>
    rw [interfaceNamesFrom] at h
    split at h
    · exact ih _ h
    · split at h
      · rename_i found hfound
        rcases List.mem_cons.mp h with rfl | h
        · obtain ⟨second, rest, rfl, hupper⟩ := hat hfound
          exact ⟨'I', second, rest, by simp, hupper⟩
        · exact ih _ h
      · exact ih _ h

end ClientGen
