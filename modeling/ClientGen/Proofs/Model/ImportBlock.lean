import ClientGen.Proofs.Model.ImportLine
import ClientGen.Proofs.Model.Paragraphs

/-!
# Blocks of imports

An import may run over several lines of a text, but not in a block that consists of imports: there
each line, in the sense of Unicode, is an import by itself.

* `ModuleText.visibleLines_eq`: a block consists of imports or not by its lines that are not blank.
* `ModuleText.exists_of_typeImport?`, `ModuleText.eq_of_typeImport?_append`: the parts of an import.
* `ModuleText.Importable`: names and a module that fit on a line, and
  `ModuleText.importable_of_isImportBlock`: those of a block of imports do.
* `ModuleText.Importable.isImportLine`: the line that imports such names.
-/

namespace ClientGen.ModuleText

open Text

variable {a b cs l u names source rest : List Char}

/-! ## Lines with something to see -/

/-- The lines of a text, in the sense of Unicode, that do not only hold blanks. -/
def visibleLines (cs : List Char) : List (List Char) :=
  (lines cs).filter fun line => !(trim line).isEmpty

theorem isImportBlock_eq (cs : List Char) : isImportBlock cs
    = (!(visibleLines cs).isEmpty && (visibleLines cs).all fun l => (typeImport? l).isSome) := rfl

theorem visibleLines_append (a b : List Char) :
    visibleLines (a ++ '\n' :: b) = visibleLines a ++ visibleLines b := by
  obtain ⟨gap, hgap, hlines⟩ := exists_lines_append a
  have hnone : gap.filter (fun line => !(trim line).isEmpty) = [] := by
    refine List.filter_eq_nil_iff.mpr fun l hl => ?_
    rw [hgap l hl]
    decide
  rw [visibleLines, hlines, List.filter_append, List.filter_append, hnone, List.append_nil,
    visibleLines, visibleLines]

theorem visibleLines_of_isBlankLine (h : isBlankLine u) : visibleLines u = [] := by
  have hblank : ∀ c ∈ u, isBlank c ∧ isLineEnd c = false := by
    intro c hc
    have hline := List.all_eq_true.mp h c hc
    simp only [isLineBlank, Bool.or_eq_true, decide_eq_true_eq] at hline
    rcases hline with rfl | rfl <;> decide
  have htrim : trim u = [] := by
    rw [trim, List.dropWhile_eq_nil_iff.mpr fun c hc => (hblank c hc).1]
    rfl
  rcases u with _ | ⟨c, u⟩
  · rfl
  · rw [visibleLines, lines_self (List.cons_ne_nil _ _) fun d hd => (hblank d hd).2]
    simp [htrim]

/-- What is to see in a text is in its lines that are not blank. -/
theorem visibleLines_eq (cs : List Char) :
    visibleLines cs = (contentLines cs).flatMap visibleLines :=
  eq_flatMap_contentLines visibleLines_append (fun _ => visibleLines_of_isBlankLine) cs

/-- Blank lines do not matter for whether a block consists of imports. -/
theorem isImportBlock_congr (h : contentLines a = contentLines b) :
    isImportBlock a = isImportBlock b := by
  rw [isImportBlock_eq, isImportBlock_eq, visibleLines_eq a, visibleLines_eq b, h]

/-! ## The parts of an import -/

/-- The text in front of a character that has to come next behind others. -/
theorem eq_append_of_skipWord?_dropWhile {c : Char} {t : List Char}
    (h : skipWord? [c] (cs.dropWhile (· ≠ c)) = some t) :
    cs = cs.takeWhile (· ≠ c) ++ c :: t ∧ c ∉ cs.takeWhile (· ≠ c) := by
  refine ⟨?_, fun hmem => by simpa using List.mem_takeWhile_imp hmem⟩
  rw [← List.singleton_append, ← eq_append_of_skipWord? h, List.takeWhile_append_dropWhile]

/-- The text in front of a word that has to come next behind blanks. -/
theorem exists_of_skipWord?_skipAll {w t : List Char}
    (h : skipWord? w (skipAll isBlank cs) = some t) :
    ∃ u, cs = u ++ (w ++ t) ∧ ∀ c ∈ u, isBlank c := by
  refine ⟨cs.takeWhile isBlank, ?_, fun c hc => List.mem_takeWhile_imp hc⟩
  rw [← eq_append_of_skipWord? h]
  exact List.takeWhile_append_dropWhile.symm

/-- The marks around the names and around the module of an import are the first ones of their
kind. -/
theorem exists_of_typeImport? (h : typeImport? cs = some ((names, source), rest)) :
    ∃ a b tail, cs = a ++ '\x7b' :: (names ++ '\x7d' :: (b ++ '\'' :: (source ++ '\'' :: tail))) ∧
      '\x7b' ∉ a ∧ '\x7d' ∉ names ∧ '\'' ∉ b ∧ '\'' ∉ source ∧ source ≠ [] := by
  simp only [typeImport?, Option.bind_eq_bind, Option.bind_eq_some_iff] at h
  obtain ⟨cs₁, himport, cs₂, hblank, cs₃, htype, cs₄, hopen, cs₅, hclose, cs₆, hfrom, cs₇, hquote,
    cs₈, hend, hparts⟩ := h
  split at hparts
  · rename_i hdone
    obtain ⟨⟨rfl, rfl⟩, -⟩ := Prod.mk.inj (Option.some.inj hparts) |>.imp_left Prod.mk.inj
    -- What stands in front of each part, from left to right.
    obtain ⟨u₁, rfl, hu₁⟩ := exists_of_skipSome? hblank
    obtain ⟨u₃, rfl, hu₃⟩ := exists_of_skipWord?_skipAll hopen
    obtain ⟨hnames, hbrace⟩ := eq_append_of_skipWord?_dropWhile hclose
    obtain ⟨u₅, rfl, hu₅⟩ := exists_of_skipWord?_skipAll hfrom
    obtain ⟨u₆, rfl, hu₆⟩ := exists_of_skipWord?_skipAll hquote
    obtain ⟨hsource, hlast⟩ := eq_append_of_skipWord?_dropWhile hend
    have hnot : ∀ {c : Char} {u : List Char}, (∀ d ∈ u, isBlank d) → isBlank c = false → c ∉ u :=
      fun hu hc hmem => by simp [hu _ hmem] at hc
    refine ⟨"import".toList ++ (u₁ ++ ("type".toList ++ u₃)), u₅ ++ ("from".toList ++ u₆), cs₈,
      ?_, ?_, hbrace, ?_, hlast, ?_⟩
    · rw [eq_append_of_skipWord? himport, eq_append_of_skipWord? htype]
      simp only [List.append_assoc, List.singleton_append, List.append_cancel_left_eq,
        List.cons.injEq, true_and]
      rw [← hsource]
      simpa using hnames
    · simp [hnot hu₁ (c := '\x7b') (by decide), hnot hu₃ (c := '\x7b') (by decide)]
    · simp [hnot hu₅ (c := '\'') (by decide), hnot hu₆ (c := '\'') (by decide)]
    · simp only [Bool.and_eq_true, Bool.not_eq_true', List.isEmpty_eq_false_iff] at hdone
      exact hdone.1
  · cases hparts

/-- What is read of an import at the start of a text does not change with what stands behind it. -/
theorem eq_of_typeImport?_append {names' source' rest' : List Char}
    (hl : typeImport? l = some ((names, source), rest))
    (h : typeImport? (l ++ b) = some ((names', source'), rest')) :
    names' = names ∧ source' = source := by
  obtain ⟨a₁, b₁, t₁, rfl, ha₁, hn₁, hb₁, hs₁, -⟩ := exists_of_typeImport? hl
  obtain ⟨a₂, b₂, t₂, heq, ha₂, hn₂, hb₂, hs₂, -⟩ := exists_of_typeImport? h
  simp only [List.append_assoc, List.cons_append] at heq
  obtain ⟨-, heq⟩ := append_cons_inj ha₁ ha₂ heq
  obtain ⟨hnames, heq⟩ := append_cons_inj hn₁ hn₂ heq
  obtain ⟨-, heq⟩ := append_cons_inj hb₁ hb₂ heq
  exact ⟨hnames.symm, (append_cons_inj hs₁ hs₂ heq).1.symm⟩

/-! ## What fits on a line -/

/-- The text between the braces of an import and its module fit on a line. -/
structure Importable (names source : List Char) : Prop where
  /-- The names stand on one line. -/
  names_oneLine : '\n' ∉ names
  /-- The names end at the first closing brace. -/
  names_closed : '\x7d' ∉ names
  /-- The module stands on one line. -/
  source_oneLine : '\n' ∉ source
  /-- The module ends at the first quote. -/
  source_closed : '\'' ∉ source
  /-- There is a module. -/
  source_ne_nil : source ≠ []

/-- What an import of a line holds fits on a line. -/
theorem importable_of_typeImport? (hl : '\n' ∉ l)
    (h : typeImport? l = some ((names, source), rest)) : Importable names source := by
  obtain ⟨a, b, tail, rfl, -, hnames, -, hsource, hne⟩ := exists_of_typeImport? h
  simp only [List.mem_append, List.mem_cons, not_or] at hl
  exact ⟨hl.2.2.1, hnames, hl.2.2.2.2.2.2.1, hsource, hne⟩

/-- The imports of a block of imports fit on lines. -/
theorem importable_of_isImportBlock (hb : isImportBlock b)
    (h : (names, source) ∈ typeImports b) : Importable names source := by
  obtain ⟨front, text, tail, rfl, hfront, hfound⟩ := exists_of_mem_lineMatches h
  -- The import starts a line of the block, in the sense of Unicode too.
  obtain ⟨c, cs, rfl⟩ : ∃ c cs, text = c :: cs := by
    cases text with
    | nil => cases hfound
    | cons c cs => exact ⟨c, cs, rfl⟩
  have hc : c = 'i' := by
    by_contra hne
    rw [typeImport?_of_head (by simpa using hne)] at hfound
    cases hfound
  subst hc
  obtain ⟨ws, hlines⟩ := exists_lines_cons (c := 'i') (by decide) cs
  set l := 'i' :: cs.takeWhile fun d => !isLineEnd d with hl
  have hvisible : l ∈ visibleLines (front ++ 'i' :: cs) := by
    have hmem : l ∈ visibleLines ('i' :: cs) := by
      refine List.mem_filter.mpr ⟨hlines ▸ List.mem_cons_self, ?_⟩
      simpa using trim_cons_ne_nil (c := 'i') (by decide) _
    rcases hfront with rfl | hfront
    · exact hmem
    · obtain ⟨front, rfl⟩ := List.getLast?_eq_some_iff.mp hfront
      rw [List.append_assoc, List.singleton_append, visibleLines_append]
      exact List.mem_append_right _ hmem
  have honeLine : '\n' ∉ l := by
    rw [hl, List.mem_cons, not_or]
    refine ⟨by decide, fun hmem => ?_⟩
    exact absurd (List.mem_takeWhile_imp hmem) (by decide)
  -- So this line is an import by itself, and it is the one that was found.
  rw [isImportBlock_eq, Bool.and_eq_true, List.all_eq_true] at hb
  obtain ⟨⟨⟨names', source'⟩, rest⟩, himport⟩ := Option.isSome_iff_exists.mp (hb.2 l hvisible)
  have htext : 'i' :: cs = l ++ cs.dropWhile fun d => !isLineEnd d := by
    rw [hl, List.cons_append, List.takeWhile_append_dropWhile]
  rw [htext] at hfound
  obtain ⟨rfl, rfl⟩ := eq_of_typeImport?_append himport hfound
  exact importable_of_typeImport? honeLine himport

/-! ## Import lines -/

/-- One line of text that is an import. -/
structure IsImportLine (l : List Char) : Prop extends IsLine l where
  /-- It is an import up to its end. -/
  imports : ∃ i, typeImport? l = some (i, [])

theorem IsImportLine.head? (h : IsImportLine l) : l.head? = some 'i' := by
  by_contra hne
  obtain ⟨i, himport⟩ := h.imports
  rw [typeImport?_of_head hne] at himport
  cases himport

/-- The characters of listed names are those of the text between the braces. -/
theorem subset_of_mem_listedNames {n : List Char} (h : n ∈ listedNames names) : n ⊆ names := by
  obtain ⟨piece, hpiece, rfl⟩ := List.mem_map.mp (List.mem_filter.mp h).1
  have hsub : piece ⊆ names := by
    conv_rhs => rw [← joined_splitOn ',' names]
    exact subset_joined _ hpiece
  exact List.Subset.trans (trim_subset piece) hsub

/-- The line that imports some of the names is an import. -/
theorem Importable.isImportLine (h : Importable names source) {ns : List (List Char)}
    (hns : ∀ n ∈ ns, n ⊆ names) : IsImportLine (importLine ns source) := by
  -- A character of the listing is a separator or stands in a name.
  have hlisting : ∀ {c : Char}, c ≠ ' ' → c ≠ ',' → c ∉ names →
      c ∉ ' ' :: (joined [',', ' '] ns ++ [' ']) := by
    intro c hspace hcomma hc hmem
    simp only [List.mem_cons, List.mem_append, List.not_mem_nil, hspace, or_false, false_or] at hmem
    rcases mem_joined hmem with hmem | ⟨n, hn, hmem⟩
    · simp [hspace, hcomma] at hmem
    · exact hc (hns n hn hmem)
  have hfeed := hlisting (by decide) (by decide) h.names_oneLine
  have hfound := typeImport?_append (hlisting (by decide) (by decide) h.names_closed)
    h.source_closed h.source_ne_nil atLineEnd_nil
  rw [← importLine_eq, List.append_nil] at hfound
  refine ⟨⟨?_, 'i', ?_, by decide⟩, _, hfound⟩
  · rw [importLine_eq]
    simp only [List.mem_append, hfeed, h.source_oneLine, false_or, not_or]
    decide
  · rw [importLine_eq]
    simp

/-- Missing imports of a block of imports are import lines. -/
theorem isImportLine_of_mem_missingImports (hb : isImportBlock b) (known : List (List Char)) :
    ∀ l ∈ missingImports known (typeImports b), IsImportLine l := by
  have hall : ∀ i ∈ typeImports b, Importable i.1 i.2 := fun i hi =>
    importable_of_isImportBlock hb hi
  generalize typeImports b = is at hall
  induction is generalizing known with
  | nil => simp [missingImports]
  | cons i is ih =>
    rw [List.forall_mem_cons] at hall
    rw [missingImports]
    split
    · exact ih known hall.2
    · refine List.forall_mem_cons.mpr ⟨hall.1.isImportLine fun n hn => ?_, ih _ hall.2⟩
      exact subset_of_mem_listedNames (List.mem_filter.mp hn).1

end ClientGen.ModuleText
