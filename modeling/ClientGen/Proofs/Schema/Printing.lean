import ClientGen.Proofs.Expansion.Formed
import ClientGen.Proofs.Number.Characters
import ClientGen.Proofs.Text.Lines

/-!
# Types and literals on one line

Whatever texts a document holds, the types and literals of generated code are printed on one line.
Only the key of a property can spill over, by a line feed at its end.

* `Unbroken`: a text without line feeds.
* `Binary64.unbroken_textWith`, `Node.unbroken_jsonText`, `unbroken_literal`: numbers, JSON and
  literals.
* `TypeExpr.Formed.unbroken`: types.
* `unbroken_comment`: what is said in comments.
* `propertyKey_cases`: the keys of properties.
-/

namespace ClientGen

/-- A text without line feeds. -/
def Unbroken (s : String) : Prop := '\n' ∉ s.toList

instance (s : String) : Decidable (Unbroken s) := instDecidableNot

/-- Two texts are unbroken together exactly if both are. -/
@[simp]
theorem unbroken_append {s t : String} : Unbroken (s ++ t) ↔ Unbroken s ∧ Unbroken t := by
  simp [Unbroken]

/-- A text is unbroken exactly if no line feed is among its characters. -/
@[simp]
theorem unbroken_ofList {cs : List Char} : Unbroken (String.ofList cs) ↔ '\n' ∉ cs := by
  simp [Unbroken]

/-- Unbroken texts with an unbroken separator between them are unbroken. -/
theorem Unbroken.intercalate {sep : String} {ss : List String} (hsep : Unbroken sep)
    (h : ∀ s ∈ ss, Unbroken s) : Unbroken (sep.intercalate ss) := by
  intro hmem
  rw [Text.toList_intercalate] at hmem
  rcases Text.mem_joined hmem with hmem | ⟨w, hw, hmem⟩
  · exact hsep hmem
  · obtain ⟨s, hs, rfl⟩ := List.mem_map.mp hw
    exact h s hs hmem

/-! ## Numbers -/

/-- A number is unbroken. -/
theorem unbroken_int (n : Int) : Unbroken (toString n) :=
  fun h => absurd (numeral_int n _ h) (by decide)

/-- A number is on one line if its words are. -/
theorem Binary64.unbroken_textWith {nanText infiniteText : String} (hnan : Unbroken nanText)
    (hinfinite : Unbroken infiniteText) (x : Binary64) :
    Unbroken (textWith nanText infiniteText x) := by
  intro h
  rcases mem_textWith h with h | h | h
  · exact absurd h (by decide)
  · exact hnan h
  · exact hinfinite h

/-! ## JSON -/

namespace Json

/-- The escape of a unit is unbroken. -/
theorem lineFeed_not_mem_unitEscape (n : Nat) : '\n' ∉ unitEscape n := by
  have hdigit : ∀ k < 16, Hexadecimal.digit k ≠ '\n' := by decide
  have hdigits : '\n' ∉ Hexadecimal.digits 4 n := fun h => by
    obtain ⟨k, hk, heq⟩ := Hexadecimal.exists_of_mem_digits h
    exact hdigit k hk heq.symm
  simp [unitEscape, hdigits]

/-- The escape of a character in a document has no line feed. -/
theorem lineFeed_not_mem_escaped (c : Char) : '\n' ∉ escaped c := by
  have hunit := lineFeed_not_mem_unitEscape
  by_cases hfeed : c = '\n'
  · rw [hfeed]
    decide
  · unfold escaped
    dsimp only
    repeat' split
    any_goals decide
    -- The character itself, one unit, and a pair of units are left.
    · simpa [eq_comm] using hfeed
    · exact hunit _
    · simp [hunit]

/-- A quoted text of a document is unbroken. -/
theorem unbroken_quoted (s : String) : Unbroken (quoted s) := by
  have hchars : '\n' ∉ s.toList.flatMap escaped := fun h => by
    obtain ⟨c, -, hc⟩ := List.mem_flatMap.mp h
    exact lineFeed_not_mem_escaped c hc
  rw [quoted, unbroken_append, unbroken_append]
  exact ⟨⟨by decide, unbroken_ofList.mpr hchars⟩, by decide⟩

end Json

mutual

/-- JSON is on one line. -/
theorem Node.unbroken_jsonText : ∀ v : Node, Unbroken v.jsonText
  | .null => by decide
  | .bool b => by cases b <;> decide
  | .int n => unbroken_int n
  | .real x => Binary64.unbroken_textWith (by decide) (by decide) x
  | .text s => Json.unbroken_quoted s
  | .list items => by
    rw [Node.jsonText, unbroken_append, unbroken_append]
    exact ⟨⟨by decide, unbroken_itemsText items⟩, by decide⟩
  | .object fields => by
    rw [Node.jsonText, unbroken_append, unbroken_append]
    exact ⟨⟨by decide, unbroken_membersText fields⟩, by decide⟩

/-- The text of the items of a list is unbroken. -/
theorem unbroken_itemsText : ∀ items : List Node, Unbroken (itemsText items)
  | [] => by decide
  | [x] => Node.unbroken_jsonText x
  | x :: y :: xs => by
    rw [itemsText, unbroken_append, unbroken_append]
    · exact ⟨⟨Node.unbroken_jsonText x, by decide⟩, unbroken_itemsText (y :: xs)⟩
    · exact List.cons_ne_nil y xs

/-- The text of the members of an object is unbroken. -/
theorem unbroken_membersText : ∀ fields : List (Key × Node), Unbroken (membersText fields)
  | [] => by decide
  | [(k, v)] => by
    rw [membersText, unbroken_append, unbroken_append]
    exact ⟨⟨Json.unbroken_quoted _, by decide⟩, Node.unbroken_jsonText v⟩
  | (k, v) :: f :: fields => by
    rw [membersText, unbroken_append, unbroken_append, unbroken_append, unbroken_append]
    · exact ⟨⟨⟨⟨Json.unbroken_quoted _, by decide⟩, Node.unbroken_jsonText v⟩, by decide⟩,
        unbroken_membersText (f :: fields)⟩
    · exact List.cons_ne_nil f fields

end

/-! ## Literals and types -/

/-- A quoted text is unbroken. -/
theorem unbroken_quote (s : String) : Unbroken (quote s) := by
  -- A line feed is written as an escape, every other character as itself or behind a backslash.
  have hchar : ∀ c, '\n' ∉ quotedChar c := by
    intro c
    by_cases hfeed : c = '\n'
    · rw [hfeed]
      decide
    · unfold quotedChar
      repeat' split
      any_goals decide
      simpa [eq_comm] using hfeed
  have hchars : '\n' ∉ s.toList.flatMap quotedChar := fun h => by
    obtain ⟨c, -, hc⟩ := List.mem_flatMap.mp h
    exact hchar c hc
  rw [quote, unbroken_append, unbroken_append]
  exact ⟨⟨by decide, unbroken_ofList.mpr hchars⟩, by decide⟩

/-- A literal is on one line, whatever value it stands for. -/
theorem unbroken_literal (v : Node) : Unbroken (literal v) := by
  cases v with
  | null => decide
  | bool b => cases b <;> decide
  | int n => exact unbroken_int n
  | real x => exact Binary64.unbroken_textWith (by decide) (by decide) x
  | text s => exact unbroken_quote s
  | list items => exact Node.unbroken_jsonText (.list items)
  | object fields => exact Node.unbroken_jsonText (.object fields)

/-- An interface name is unbroken. -/
theorem unbroken_interfaceName {name : String} (h : Naming.IsInterfaceName name) :
    Unbroken name := by
  obtain ⟨cs, hname, halpha⟩ := h.exists_toList
  intro hmem
  rw [hname] at hmem
  rcases List.mem_cons.mp hmem with hmem | hmem
  · exact absurd hmem (by decide)
  · exact absurd (halpha _ hmem) (by decide)

/-- A type is on one line. -/
theorem TypeExpr.Formed.unbroken {t : TypeExpr} (h : t.Formed) : Unbroken t.text := by
  induction h with
  | any => decide
  | @basic word hword =>
    have hall : ∀ word ∈ basicWords, Unbroken word := by decide
    exact hall word hword
  | named base => exact unbroken_interfaceName (Naming.isInterfaceName_plain base)
  | value node => exact unbroken_literal node
  -- Members, items and values are joined by texts without a line feed.
  | union _ ih =>
    rw [text, texts_eq_map]
    refine Unbroken.intercalate (by decide) fun s hs => ?_
    obtain ⟨m, hm, rfl⟩ := List.mem_map.mp hs
    exact ih m hm
  | array _ ih =>
    refine unbroken_append.mpr ⟨?_, by decide⟩
    unfold parenthesized
    split
    · exact unbroken_append.mpr ⟨unbroken_append.mpr ⟨by decide, ih⟩, by decide⟩
    · exact ih
  | record _ ih =>
    exact unbroken_append.mpr ⟨unbroken_append.mpr ⟨by decide, ih⟩, by decide⟩

/-! ## Comments -/

/-- The fields of a text have no blanks. -/
theorem Text.not_isBlank_of_mem_fields (cs : List Char) :
    ∀ w ∈ Text.fields cs, ∀ c ∈ w, Text.isBlank c = false := by
  induction cs with
  | nil => simp [Text.fields]
  | cons d cs ih =>
    rw [Text.fields.eq_def]
    dsimp only
    split
    · exact ih
    · rename_i hd
      have hblank : Text.isBlank d = false := by simpa using hd
      cases cs with
      | nil => simp [hblank]
      | cons e cs =>
        dsimp only
        split
        · exact List.forall_mem_cons.mpr ⟨by simp [hblank], ih⟩
        · -- The character goes to the front of the next field.
          cases hfields : Text.fields (e :: cs) with
          | nil => simp [Text.consFirst, hblank]
          | cons w ws =>
            rw [hfields, List.forall_mem_cons] at ih
            exact List.forall_mem_cons.mpr ⟨List.forall_mem_cons.mpr ⟨hblank, ih.1⟩, ih.2⟩

/-- Taking out closing marks brings in backslashes only. -/
theorem mem_of_mem_defuse {cs : List Char} {c : Char} (h : c ∈ defuse cs) :
    c ∈ cs ∨ c = '\\' := by
  fun_induction defuse cs with
  | case1 => exact .inl h
  | case2 cs ih =>
    simp only [List.mem_cons] at h ⊢
    rcases h with h | h | h | h
    · exact .inl (.inl h)
    · exact .inr h
    · exact .inl (.inr (.inl h))
    · exact (ih h).imp_left fun h => .inr (.inr h)
  | case3 d cs _ ih =>
    rcases List.mem_cons.mp h with h | h
    · exact .inl (List.mem_cons.mpr (.inl h))
    · exact (ih h).imp_left (List.mem_cons_of_mem d)

/-- The text of a comment is unbroken. -/
theorem unbroken_commentText (s : String) : Unbroken (commentText s) := by
  rw [commentText, unbroken_ofList]
  intro h
  rcases mem_of_mem_defuse h with h | h
  · rcases Text.mem_joined h with h | ⟨w, hw, h⟩
    · exact absurd h (by decide)
    · exact absurd (Text.not_isBlank_of_mem_fields _ w hw _ h) (by decide)
  · exact absurd h (by decide)

/-- What is said about a declaration or a property is nothing or fills one line. -/
theorem DocComment.text_cases (d : DocComment) (indent : String) :
    d.text indent = "" ∨ ∃ body, Unbroken body ∧
      d.text indent = indent ++ "/** " ++ body ++ " */\n" := by
  -- The description is cut into one line, and the two marks are fixed texts.
  have hparts : ∀ s ∈ d.parts, Unbroken s := by
    intro s hs
    simp only [parts, List.mem_append] at hs
    rcases hs with (hs | hs) | hs
    · split at hs
      · split at hs
        · exact absurd hs List.not_mem_nil
        · rw [List.mem_singleton.mp hs]
          exact unbroken_commentText _
      · exact absurd hs List.not_mem_nil
    · split at hs
      · rw [List.mem_singleton.mp hs]
        decide
      · exact absurd hs List.not_mem_nil
    · split at hs
      · rw [List.mem_singleton.mp hs]
        decide
      · exact absurd hs List.not_mem_nil
  unfold text
  split
  · exact .inl rfl
  · exact .inr ⟨_, Unbroken.intercalate (by decide) hparts, rfl⟩

/-! ## Keys of properties -/

/-- An identifier starts like one and is on one line. -/
theorem Naming.exists_cons_of_isIdentifierText {cs : List Char} (h : isIdentifierText cs) :
    ∃ c rest, cs = c :: rest ∧ isIdentifierStart c ∧ '\n' ∉ cs := by
  cases cs with
  | nil => exact absurd h (by decide)
  | cons c rest =>
    rw [isIdentifierText, Bool.and_eq_true, List.all_eq_true] at h
    refine ⟨c, rest, rfl, h.1, fun hmem => ?_⟩
    rcases List.mem_cons.mp hmem with rfl | hmem
    · exact absurd h.1 (by decide)
    · exact absurd (h.2 _ hmem) (by decide)

/-- The key of a property is on one line, or it is an identifier with a line feed behind it. -/
theorem propertyKey_cases (name : String) : Unbroken (propertyKey name) ∨
    ∃ c rest, propertyKey name = String.ofList (c :: rest) ++ "\n" ∧
      Naming.isIdentifierStart c ∧ '\n' ∉ c :: rest := by
  unfold propertyKey
  split
  · rename_i h
    rw [Naming.isIdentifier] at h
    split at h
    · -- The line feed at the end is not looked at, and stays in the key.
      rename_i hlast
      obtain ⟨c, rest, hcs, hstart, hfeed⟩ := Naming.exists_cons_of_isIdentifierText h
      refine .inr ⟨c, rest, ?_, hstart, hcs ▸ hfeed⟩
      have hname := List.dropLast_append_getLast? _ hlast
      rw [← hcs, ← String.toList_inj, ← hname]
      simp
    · obtain ⟨c, rest, hcs, -, hfeed⟩ := Naming.exists_cons_of_isIdentifierText h
      exact .inl hfeed
  · exact .inl (unbroken_quote name)

end ClientGen
