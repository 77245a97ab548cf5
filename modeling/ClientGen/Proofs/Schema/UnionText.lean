import ClientGen.Proofs.Schema.Outermost

/-!
# Types as texts of unions

Every type that expansions build is printed as the members of its outermost union with bars between
them, whatever texts the document holds: each member is one for a reader as well.

* `whole_literal`: a literal is one member, whatever it quotes.
* `TypeExpr.Formed.putTogether`: types are put together from members.
* `betweenBars_joined`: what stands between any two bars of a type stands between two bars of a
  member.
-/

namespace ClientGen

open TypeExpr

/-- A word occurs in a text around it. -/
theorem Text.occursIn_append (before word after : List Char) :
    Text.occursIn word (before ++ word ++ after) = true := by
  induction before with
  | nil =>
    cases word with
    | nil => cases after <;> simp [Text.occursIn, Text.startsWith]
    | cons c word =>
      have hstart : Text.startsWith (c :: word) ((c :: word) ++ after) = true :=
        List.isPrefixOf_iff_prefix.mpr (List.prefix_append _ _)
      rw [List.nil_append, List.cons_append, Text.occursIn, ← List.cons_append, hstart,
        Bool.true_or]
  | cons c before ih =>
    rw [List.append_assoc, List.cons_append, Text.occursIn, ← List.append_assoc, ih, Bool.or_true]

/-! ## Literals -/

/-- A character of a numeral opens and closes nothing, and is no bar. -/
theorem not_mem_marks_of_isNumeralChar {c : Char} (h : IsNumeralChar c) : c ∉ marks := by
  have hmarks : marks.any (decide <| IsNumeralChar ·) = false := by decide
  exact fun hmem => List.any_eq_false.mp hmarks c hmem (decide_eq_true h)

/-- A number is one member wherever it stands. -/
theorem whole_int (n : Int) : Whole (toString n).toList :=
  whole_of_plain fun c hc => not_mem_marks_of_isNumeralChar (numeral_int n c hc)

/-- A fraction is one member wherever it stands, if the words for the special values are plain. -/
theorem whole_textWith {nanText infiniteText : String}
    (hnan : Plain nanText.toList) (hinfinite : Plain infiniteText.toList) (x : Binary64) :
    Whole (Binary64.textWith nanText infiniteText x).toList := by
  refine whole_of_plain fun c hc => ?_
  rcases Binary64.mem_textWith hc with hc | hc | hc
  · exact not_mem_marks_of_isNumeralChar hc
  · exact hnan c hc
  · exact hinfinite c hc

/-- A quoted text leaves a reader as deep as it was. -/
theorem level_quote (s : String) : Level (quote s).toList := by
  have hchar : ∀ d c, Guards { depth := d, quote := some '\'' } (quotedChar c)
      { depth := d, quote := some '\'' } := by
    intro d c
    unfold quotedChar
    split_ifs with hslash hquote hfeed
    · exact guards_escaped d _ _
    · exact guards_escaped d _ _
    · exact guards_escaped d _ _
    · exact guards_plain_quoted (by simp [hslash, hquote])
  have hlevel := level_quoted (.inl rfl) hchar s.toList
  simpa [quote] using hlevel

/-- A quoted text leaves a reader as deep as it was, also with the escapes of documents. -/
theorem level_quoted_json (s : String) : Level (Json.quoted s).toList := by
  have hunit : ∀ d n, Guards { depth := d, quote := some '"' } (Json.unitEscape n)
      { depth := d, quote := some '"' } := by
    intro d n
    have hdigit : ∀ k < 16, Hexadecimal.digit k ≠ '\\' ∧ Hexadecimal.digit k ≠ '"' := by decide
    have hdigits : ∀ c ∈ Hexadecimal.digits 4 n, c ≠ '\\' ∧ c ≠ '"' := by
      intro c hc
      obtain ⟨k, hk, rfl⟩ := Hexadecimal.exists_of_mem_digits hc
      exact hdigit k hk
    exact (guards_escaped d _ _).append (guards_plain_quoted hdigits)
  have hchar : ∀ d c, Guards { depth := d, quote := some '"' } (Json.escaped c)
      { depth := d, quote := some '"' } := by
    intro d c
    unfold Json.escaped
    dsimp only
    split_ifs with hquote hslash
    any_goals exact guards_escaped d _ _
    -- The character itself, one unit, and a pair of units are left.
    · exact guards_plain_quoted (by simp [hslash, hquote])
    · exact hunit d _
    · exact (hunit d _).append (hunit d _)
  have hlevel := level_quoted (.inr rfl) hchar s.toList
  simpa [Json.quoted] using hlevel

theorem level_comma : Level ", ".toList := level_of_plain (by decide)

theorem level_colon : Level ": ".toList := level_of_plain (by decide)

/-- Brackets and braces mean nothing to the reader. -/
theorem level_brackets {open' close : String} (hopen : Plain open'.toList)
    (hclose : Plain close.toList) {s : String} (h : Level s.toList) :
    Level (open' ++ s ++ close).toList := by
  rw [String.toList_append, String.toList_append]
  exact ((level_of_plain hopen).append h).append (level_of_plain hclose)

mutual

/-- The text of a node leaves a reader as deep as it was. -/
theorem Node.level_jsonText : ∀ v : Node, Level v.jsonText.toList
  | .null => level_of_plain (by decide)
  | .bool b => by cases b <;> exact level_of_plain (by decide)
  | .int n => (whole_int n).level
  | .real x => (whole_textWith (by decide) (by decide) x).level
  | .text s => level_quoted_json s
  | .list items => level_brackets (by decide) (by decide) (level_itemsText items)
  | .object fields => level_brackets (by decide) (by decide) (level_membersText fields)

/-- The text of the items of a list leaves a reader as deep as it was. -/
theorem level_itemsText : ∀ items : List Node, Level (itemsText items).toList
  | [] => level_nil
  | [x] => Node.level_jsonText x
  | x :: y :: xs => by
    rw [itemsText, String.toList_append, String.toList_append]
    · exact ((Node.level_jsonText x).append level_comma).append (level_itemsText (y :: xs))
    · exact List.cons_ne_nil y xs

/-- The text of the members of an object leaves a reader as deep as it was. -/
theorem level_membersText : ∀ fields : List (Key × Node), Level (membersText fields).toList
  | [] => level_nil
  | [(k, v)] => by
    rw [membersText, String.toList_append, String.toList_append]
    exact ((level_quoted_json k.jsonName).append level_colon).append (Node.level_jsonText v)
  | (k, v) :: f :: fields => by
    rw [membersText, String.toList_append, String.toList_append, String.toList_append,
      String.toList_append]
    · have hfield :=
        ((level_quoted_json k.jsonName).append level_colon).append (Node.level_jsonText v)
      exact (hfield.append level_comma).append (level_membersText (f :: fields))
    · exact List.cons_ne_nil f fields

end

/-- A literal is one member, whatever value it stands for. -/
theorem whole_literal (v : Node) : Whole (literal v).toList := by
  -- Words and numbers have no bars or brackets; texts, lists and objects close what they open.
  cases v with
  | null => exact whole_of_plain (by decide)
  | bool b => cases b <;> exact whole_of_plain (by decide)
  | int n => exact whole_int n
  | real x => exact whole_textWith (by decide) (by decide) x
  | text s =>
    have hlevel := level_quote s
    rw [quote, String.toList_append] at hlevel
    rw [literal, quote, String.toList_append]
    exact hlevel.whole_concat (by decide)
  | list items =>
    have hlevel := Node.level_jsonText (.list items)
    change Whole (Node.jsonText (.list items)).toList
    rw [Node.jsonText, String.toList_append] at hlevel ⊢
    exact hlevel.whole_concat (by decide)
  | object fields =>
    have hlevel := Node.level_jsonText (.object fields)
    change Whole (Node.jsonText (.object fields)).toList
    rw [Node.jsonText, String.toList_append] at hlevel ⊢
    exact hlevel.whole_concat (by decide)

/-- An interface name is one member wherever it stands. -/
theorem whole_interfaceName {name : String} (h : Naming.IsInterfaceName name) :
    Whole name.toList := by
  obtain ⟨cs, hname, halpha⟩ := h.exists_toList
  have hmarks : marks.any Text.isAsciiAlphanumeric = false := by decide
  rw [hname]
  refine whole_of_plain (List.forall_mem_cons.mpr ⟨by decide, fun c hc hmark => ?_⟩)
  exact List.any_eq_false.mp hmarks c hmark (halpha c hc)

/-! ## Types -/

/-- A text that has no bar is not put together from several members. -/
theorem whole_joined_of_not_occursIn {ps : List (List Char)} (hne : ps ≠ [])
    (h : ∀ p ∈ ps, Whole p)
    (hbar : Text.occursIn bar.toList (Text.joined bar.toList ps) = false) :
    Whole (Text.joined bar.toList ps) := by
  cases ps with
  | nil => exact absurd rfl hne
  | cons p ps =>
    cases ps with
    | nil => exact h p List.mem_cons_self
    | cons p' ps =>
      rw [Text.joined_cons_cons, Text.occursIn_append] at hbar
      cases hbar

/-- A list or a record is one member. -/
theorem whole_parenthesized {s : String} {ps : List (List Char)} (hne : ps ≠ [])
    (h : ∀ p ∈ ps, Whole p) (hs : s.toList = Text.joined bar.toList ps) :
    Whole (parenthesized s ++ "[]").toList := by
  -- Brackets are put around a text that has bars at its outermost level.
  have hlevel : Level (parenthesized s).toList := by
    unfold parenthesized
    split
    · rw [String.toList_append, String.toList_append, hs]
      exact level_enclosed (guards_joined h) (.inl ⟨rfl, rfl⟩)
    · rename_i hbar
      rw [hs, Bool.or_eq_true, not_or] at hbar
      rw [hs]
      exact (whole_joined_of_not_occursIn hne h (Bool.eq_false_iff.mpr hbar.1)).level
  have hbrackets : Level ['['] := level_of_plain (by decide)
  have hlist : Level ((parenthesized s).toList ++ ['['] ++ [']']) :=
    (hlevel.append hbrackets).append (level_of_plain (by decide))
  have htext : (parenthesized s ++ "[]").toList = (parenthesized s).toList ++ ['['] ++ [']'] := by
    rw [String.toList_append, List.append_assoc]
    rfl
  rw [htext]
  exact hlist.whole_concat (by decide)

/-- A record is one member wherever it stands, if the type of its values is put together from
members. -/
theorem whole_record {s : String} {ps : List (List Char)}
    (h : ∀ p ∈ ps, Whole p) (hs : s.toList = Text.joined bar.toList ps) :
    Whole ("Record<string, " ++ s ++ ">").toList := by
  have hkey : Level "string, ".toList := level_of_plain (by decide)
  have hinside : ∀ d, Guards { depth := d + 1 } ("string, ".toList ++ s.toList)
      { depth := d + 1 } :=
    fun d => (hkey.guards (d + 1)).append (hs ▸ guards_joined h d)
  have hword : Level "Record".toList := level_of_plain (by decide)
  have hrecord := hword.append (level_enclosed hinside (.inr ⟨rfl, rfl⟩))
  have htext : ("Record<string, " ++ s ++ ">").toList
      = "Record".toList ++ ('<' :: ("string, ".toList ++ s.toList ++ ['>'])) := by
    rw [String.toList_append, String.toList_append]
    rfl
  rw [htext]
  rw [← List.cons_append, ← List.append_assoc] at hrecord ⊢
  exact hrecord.whole_concat (by decide)

/-- A text that is put together from members. -/
def PutTogether (cs : List Char) : Prop :=
  ∃ ps, ps ≠ [] ∧ (∀ p ∈ ps, Whole p) ∧ cs = Text.joined bar.toList ps

/-- A text that is one member is put together from members. -/
theorem Whole.putTogether {p : List Char} (h : Whole p) : PutTogether p :=
  ⟨[p], List.cons_ne_nil _ _, by simpa using h, rfl⟩

/-- Unions of unions have the members of all of them. -/
theorem putTogether_joined {texts : List (List Char)} (h : ∀ cs ∈ texts, PutTogether cs) :
    PutTogether (Text.joined bar.toList texts) := by
  induction texts with
  | nil => exact Whole.putTogether ⟨level_nil, nofun⟩
  | cons cs texts ih =>
    obtain ⟨⟨ps, hne, hps, rfl⟩, htexts⟩ := List.forall_mem_cons.mp h
    cases texts with
    | nil => exact ⟨ps, hne, hps, rfl⟩
    | cons cs' texts =>
      obtain ⟨ps', hne', hps', htext⟩ := ih htexts
      refine ⟨ps ++ ps', List.append_ne_nil_of_left_ne_nil hne _,
        List.forall_mem_append.mpr ⟨hps, hps'⟩, ?_⟩
      rw [Text.joined_cons_cons, htext, Text.joined_append _ hne hne']

/-- A type is put together from the members of its outermost union. -/
theorem TypeExpr.Formed.putTogether {t : TypeExpr} (h : t.Formed) :
    PutTogether t.text.toList := by
  induction h with
  | any => exact Whole.putTogether (whole_of_plain (by decide))
  | @basic word hword =>
    have hall : ∀ word ∈ basicWords, Plain word.toList := by decide
    exact (whole_of_plain (hall word hword)).putTogether
  | named base =>
    exact (whole_interfaceName (Naming.isInterfaceName_plain base)).putTogether
  | value node => exact (whole_literal node).putTogether
  -- Only a union has bars of its own, each other type is one member.
  | union _ ih =>
    rw [text, texts_eq_map, Text.toList_intercalate]
    refine putTogether_joined fun cs hcs => ?_
    obtain ⟨s, hs, rfl⟩ := List.mem_map.mp hcs
    obtain ⟨m, hm, rfl⟩ := List.mem_map.mp hs
    exact ih m hm
  | array _ ih =>
    obtain ⟨ps, hne, hps, htext⟩ := ih
    exact (whole_parenthesized hne hps htext).putTogether
  | record _ ih =>
    obtain ⟨ps, -, hps, htext⟩ := ih
    exact (whole_record hps htext).putTogether

/-! ## Texts between bars -/

/-- Splitting at bars leaves at least one text. -/
theorem betweenBars_ne_nil (skip : Nat) (cs : List Char) : betweenBars skip cs ≠ [] := by
  induction cs generalizing skip with
  | nil => cases skip <;> exact List.cons_ne_nil _ _
  | cons c cs ih =>
    cases skip with
    | succ skip => exact ih skip
    | zero =>
      rw [betweenBars]
      split
      · exact List.cons_ne_nil _ _
      · unfold Text.consFirst
        split <;> exact List.cons_ne_nil _ _

/-- A character in front of two runs of texts is in front of the first run. -/
theorem consFirst_append {ws : List (List Char)} (h : ws ≠ []) (c : Char)
    (ws' : List (List Char)) :
    Text.consFirst c (ws ++ ws') = Text.consFirst c ws ++ ws' := by
  cases ws with
  | nil => exact absurd rfl h
  | cons w ws => rfl

/-- No bar reaches from a text into a bar behind it, unless the text ends with the stroke of one. -/
theorem startsWith_bar_append_bar {c : Char} {p : List Char}
    (hlast : (c :: p).getLast? ≠ some '|') (q : List Char) :
    Text.startsWith bar.toList (c :: p ++ bar.toList ++ q)
      = Text.startsWith bar.toList (c :: p) := by
  match p, hlast with
  | [], _ => simp [bar, Text.startsWith, List.isPrefixOf]
  | [d], hlast =>
    have hstroke : '|' ≠ d := fun heq => hlast (by rw [heq]; rfl)
    simp [bar, Text.startsWith, List.isPrefixOf, hstroke]
  | d :: d' :: p, _ => simp [bar, Text.startsWith, List.isPrefixOf]

/-- A bar behind a text is read as one, unless the text ends with the stroke of one. -/
theorem betweenBars_append_bar {p : List Char} (hlast : p.getLast? ≠ some '|')
    {skip : Nat} (hskip : skip ≤ p.length) (q : List Char) :
    betweenBars skip (p ++ bar.toList ++ q) = betweenBars skip p ++ betweenBars 0 q := by
  induction p generalizing skip with
  | nil =>
    obtain rfl := Nat.le_zero.mp hskip
    simp [bar, betweenBars, Text.startsWith]
  | cons c p ih =>
    have hrest : p.getLast? ≠ some '|' := fun hstroke => by
      rw [List.getLast?_cons, hstroke] at hlast
      exact hlast rfl
    cases skip with
    | succ skip => exact ih hrest (Nat.le_of_succ_le_succ hskip)
    | zero =>
      have hstart := startsWith_bar_append_bar hlast q
      rw [List.cons_append, List.cons_append] at hstart ⊢
      rw [betweenBars, betweenBars, hstart]
      split
      · -- The bar that starts here ends before the text does.
        rename_i hbar
        obtain ⟨rest, htext⟩ := startsWith_bar_iff.mp hbar
        have hlength : 2 ≤ p.length := by
          rw [(List.cons.inj htext).2]
          exact Nat.le_add_left 2 rest.length
        rw [ih hrest hlength, List.cons_append]
      · rw [ih hrest (Nat.zero_le _), consFirst_append (betweenBars_ne_nil 0 p)]

/-- What stands between two bars of a type stands between two bars of a member. -/
theorem betweenBars_joined {ps : List (List Char)} (hne : ps ≠ []) (h : ∀ p ∈ ps, Whole p) :
    betweenBars 0 (Text.joined bar.toList ps) = ps.flatMap (betweenBars 0) := by
  induction ps with
  | nil => exact absurd rfl hne
  | cons p ps ih =>
    obtain ⟨hp, hps⟩ := List.forall_mem_cons.mp h
    cases ps with
    | nil => exact (List.flatMap_singleton (betweenBars 0) p).symm
    | cons p' ps =>
      rw [Text.joined_cons_cons, betweenBars_append_bar hp.last (Nat.zero_le _),
        ih (List.cons_ne_nil _ _) hps]
      exact List.flatMap_cons.symm

end ClientGen
