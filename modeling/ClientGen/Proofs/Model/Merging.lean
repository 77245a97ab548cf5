import Mathlib.Data.List.Nodup
import ClientGen.Proofs.Model.Sheet

/-!
# Merging sheets

Merging the texts of two sheets gives the text of a sheet again. Of the second sheet it has the
declarations whose names the first does not declare, and the imported names that the first neither
imports nor declares.

* `Sheet.merge`: the merged sheet, and `Sheet.merge_text`: its text is the merged text.
* `Sheet.Distinct`: no name is declared or imported twice.
* `Sheet.Covers`: merging adds nothing.
* `Sheet.Gathers`: what the sheets that were merged have left behind, and `Sheet.gathers_merged`: it
  holds after any number of merges.
-/

namespace ClientGen.ModuleText

open Text

/-! ## Names that are new -/

/-- The names that are not known. -/
def unknown (known ns : List (List Char)) : List (List Char) :=
  ns.filter fun n => !known.contains n

variable {known ns ms : List (List Char)} {n : List Char}

/-- A name is unknown among some names exactly if it is one of them that is not known. -/
theorem mem_unknown : n ∈ unknown known ns ↔ n ∈ ns ∧ n ∉ known := by
  simp [unknown]

/-- Knowing names that are not asked for changes nothing. -/
theorem unknown_append {more : List (List Char)} (h : ∀ n ∈ ns, n ∉ more) :
    unknown (known ++ more) ns = unknown known ns :=
  List.filter_congr fun n hn => by simp [h n hn]

/-- Known names and different names that are new are different names. -/
theorem nodup_append_unknown (hms : ms.Nodup) (hns : ns.Nodup) (hknown : ms ⊆ known) :
    (ms ++ unknown known ns).Nodup := by
  refine List.nodup_append.mpr ⟨hms, hns.filter _, fun m hm n hn heq => ?_⟩
  exact (mem_unknown.mp hn).2 (hknown (heq ▸ hm))

/-! ## Import lines without some names -/

namespace ImportLine

/-- The names of the line that are not known. -/
def missing (known : List (List Char)) (i : ImportLine) : List (List Char) :=
  unknown known i.names

/-- The line that imports the names that are not known. -/
def restrict (known : List (List Char)) (i : ImportLine) (h : i.missing known ≠ []) : ImportLine :=
  { i with
    names := i.missing known
    names_ne_nil := h
    isName := fun n hn => i.isName n (List.mem_of_mem_filter hn) }

/-- The import line without the known names; none if no name is left. -/
def without (known : List (List Char)) (i : ImportLine) : Option ImportLine :=
  if h : i.missing known = [] then none else some (i.restrict known h)

/-- The names that are left are those that are not known. -/
theorem names_without (known : List (List Char)) (is : List ImportLine) :
    (is.filterMap (without known)).flatMap names = unknown known (is.flatMap names) := by
  induction is with
  | nil => rfl
  | cons i is ih =>
    rw [List.flatMap_cons, unknown, List.filter_append, ← unknown, ← unknown, ← ih, ← missing]
    by_cases h : i.missing known = []
    · have hnone : i.without known = none := dif_pos h
      rw [List.filterMap_cons_none hnone, h, List.nil_append]
    · have hsome : i.without known = some (i.restrict known h) := dif_neg h
      rw [List.filterMap_cons_some hsome]
      rfl

/-- Nothing is left of lines whose names are known. -/
theorem without_of_subset {known : List (List Char)} {is : List ImportLine}
    (h : is.flatMap names ⊆ known) : is.filterMap (without known) = [] := by
  refine List.filterMap_eq_nil_iff.mpr fun i hi => dif_pos ?_
  refine List.eq_nil_iff_forall_not_mem.mpr fun n hn => ?_
  obtain ⟨hn, hnew⟩ := mem_unknown.mp hn
  exact hnew (h (List.mem_flatMap.mpr ⟨i, hi, hn⟩))

/-- Knowing names that a line does not have changes nothing. -/
theorem without_append {i : ImportLine} {more : List (List Char)} (h : ∀ n ∈ i.names, n ∉ more) :
    i.without (known ++ more) = i.without known := by
  have hmissing : i.missing (known ++ more) = i.missing known := unknown_append h
  simp only [without, restrict, hmissing]

end ImportLine

/-- The import lines that are missing are the lines without the known names. -/
theorem missingImports_lines {is : List ImportLine} (hnodup : (is.flatMap ImportLine.names).Nodup)
    (known : List (List Char)) :
    missingImports known (is.map fun i => (i.listing, i.source))
      = (is.filterMap (ImportLine.without known)).map ImportLine.text := by
  induction is generalizing known with
  | nil => rfl
  | cons i is ih =>
    rw [List.flatMap_cons, List.nodup_append] at hnodup
    obtain ⟨-, hrest, hdisjoint⟩ := hnodup
    -- The names of later lines are not among those that become known with this line.
    have hlater : is.filterMap (ImportLine.without (known ++ i.missing known))
        = is.filterMap (ImportLine.without known) :=
      List.filterMap_congr fun j hj => ImportLine.without_append fun n hn hmem =>
        hdisjoint n (List.mem_of_mem_filter hmem) n (List.mem_flatMap.mpr ⟨j, hj, hn⟩) rfl
    rw [List.map_cons, missingImports, ImportLine.listedNames_listing, ← unknown,
      ← ImportLine.missing]
    by_cases h : i.missing known = []
    · have hnone : i.without known = none := dif_pos h
      rw [List.filterMap_cons_none hnone, h]
      exact ih hrest known
    · have hsome : i.without known = some (i.restrict known h) := dif_neg h
      rw [List.filterMap_cons_some hsome, if_neg (by simpa using h), ih hrest, hlater]
      rfl

/-! ## Declarations that are new -/

/-- The declarations whose names are not known. -/
def newEntries (known : List (List Char)) (es : List Entry) : List Entry :=
  es.filter fun e => !known.contains e.name

/-- No declaration is new if all names are known. -/
theorem newEntries_of_subset {known : List (List Char)} {es : List Entry}
    (h : es.map Entry.name ⊆ known) : newEntries known es = [] := by
  refine List.filter_eq_nil_iff.mpr fun e he => ?_
  simpa using h (List.mem_map_of_mem he)

/-- Of some declarations with different names the new ones are added. -/
theorem additionsFrom_entries {es : List Entry} (hnodup : (es.map Entry.name).Nodup)
    (old : List Char) (known : List (List Char)) :
    additionsFrom old known (es.map Entry.block)
      = { blocks := (newEntries known es).map Entry.block } := by
  induction es generalizing known with
  | nil => rfl
  | cons e es ih =>
    rw [List.map_cons, List.nodup_cons] at hnodup
    -- Later declarations have other names, so the recursion may as well not know this one.
    have hlater : newEntries (known ++ [e.name]) es = newEntries known es := by
      refine List.filter_congr fun e' he' => ?_
      have hne : e'.name ≠ e.name := fun heq => hnodup.1 (heq ▸ List.mem_map_of_mem he')
      simp [hne]
    rw [List.map_cons, additionsFrom, e.not_isImportBlock, e.declaredNames_block]
    by_cases h : e.name ∈ known
    · have hskip : newEntries known (e :: es) = newEntries known es :=
        List.filter_cons_of_neg (by simp [h])
      simp [h, hskip, ih hnodup.2]
    · have hadd : newEntries known (e :: es) = e :: newEntries known es :=
        List.filter_cons_of_pos (by simp [h])
      simp [h, hadd, hlater, ih hnodup.2]

namespace Sheet

/-! ## The merged sheet -/

/-- The sheet with more declarations at its end. -/
def addEntries (s : Sheet) (es : List Entry) : Sheet :=
  { s with
    entries := s.entries ++ es
    entries_ne_nil := fun h => s.entries_ne_nil (List.append_eq_nil_iff.mp h).1 }

/-- The sheet with more import lines behind its own. -/
def addImports (s : Sheet) (is : List ImportLine) : Sheet := { s with imports := s.imports ++ is }

@[simp]
theorem imports_addEntries (s : Sheet) (es : List Entry) : (s.addEntries es).imports = s.imports :=
  rfl

@[simp]
theorem entries_addEntries (s : Sheet) (es : List Entry) :
    (s.addEntries es).entries = s.entries ++ es := rfl

@[simp]
theorem imports_addImports (s : Sheet) (is : List ImportLine) :
    (s.addImports is).imports = s.imports ++ is := rfl

@[simp]
theorem entries_addImports (s : Sheet) (is : List ImportLine) :
    (s.addImports is).entries = s.entries := rfl

/-- The sheet with what another one adds to it. -/
def merge (s r : Sheet) : Sheet :=
  (s.addEntries (newEntries s.declared r.entries)).addImports
    (r.imports.filterMap (ImportLine.without (s.imported ++ s.declared)))

/-- No name is declared or imported twice. -/
structure Distinct (s : Sheet) : Prop where
  /-- No name is imported twice. -/
  imported : s.imported.Nodup
  /-- No name is declared twice. -/
  declared : s.declared.Nodup

/-- Where no name is declared twice, the declaration of a name is the one with the name. -/
theorem Distinct.declarationOf?_eq {s : Sheet} (h : s.Distinct) {e : Entry} (he : e ∈ s.entries) :
    s.declarationOf? e.name = some e := by
  -- Names are distinct, so the first entry of the name is the only one.
  have hfind : ∀ es : List Entry, (es.map Entry.name).Nodup → e ∈ es →
      es.find? (fun e' => e'.name == e.name) = some e := by
    intro es
    induction es with
    | nil => exact fun _ he => absurd he List.not_mem_nil
    | cons first es ih =>
      intro hnodup he
      rw [List.map_cons, List.nodup_cons] at hnodup
      rcases List.mem_cons.mp he with rfl | he
      · exact List.find?_cons_of_pos (by simp)
      · have hne : first.name ≠ e.name := fun heq => hnodup.1 (heq ▸ List.mem_map_of_mem he)
        rw [List.find?_cons_of_neg (by simpa using hne)]
        exact ih hnodup.2 he
  exact hfind s.entries h.declared he

variable (s r : Sheet)

/-- Declarations go to the end of the text. -/
theorem withBlocks_text (es : List Entry) :
    withBlocks s.text (es.map Entry.block) = (s.addEntries es).text := by
  rcases es with _ | ⟨e, es⟩
  · simp [withBlocks, addEntries]
  · have hblocks : (s.addEntries (e :: es)).blocks = s.blocks ++ (e :: es).map Entry.block := by
      have hblock : (e :: es).map Entry.block = ((e :: es).map Entry.lines).map (joined ['\n']) :=
        (List.map_map).symm
      rw [hblock, blocks, blocks, ← List.map_append]
      simp [paragraphs, addEntries]
    rw [withBlocks, if_neg (by simp), text, trimmed_blocks.dropEnd_lineFeed, text, hblocks,
      joined_append _ blocks_ne_nil (by simp)]

/-- Import lines go to the top of a text that has none. -/
theorem withImports_text_of_nil (h : s.imports = []) {is : List ImportLine} (hne : is ≠ []) :
    withImports s.text (is.map ImportLine.text) = (s.addImports is).text := by
  obtain ⟨e, es, hes⟩ := List.exists_cons_of_ne_nil s.entries_ne_nil
  have hblocks := blocks_of_nil h
  -- The text starts with a declaration.
  obtain ⟨rest, hstart⟩ : ∃ rest, s.text = e.block ++ rest := by
    rw [text, hblocks, hes]
    rcases es with _ | ⟨e', es⟩
    · exact ⟨['\n'], rfl⟩
    · rw [List.map_cons, List.map_cons, joined_cons_cons, List.append_assoc, List.append_assoc]
      exact ⟨_, rfl⟩
  have hfirst : isImportBlock (firstBlock s.text).1 = false := by
    rw [hstart]
    exact e.not_isImportBlock_firstBlock rest
  have hadded : (is.map ImportLine.text).isEmpty = false := by simpa using hne
  have hblocks' : (s.addImports is).blocks = ImportLine.block is :: s.blocks := by
    have himports : (s.addImports is).imports = is := by simp [h]
    rw [blocks_of_ne_nil (by simp [hne]), himports, entries_addImports, hblocks]
  have htext : (s.addImports is).text = ImportLine.block is ++ ['\n', '\n'] ++ s.text := by
    rw [text, hblocks', joined_cons _ _ blocks_ne_nil, text]
    simp only [List.append_assoc]
  rw [htext]
  simp only [withImports, hadded, hfirst]
  rfl

/-- Import lines go behind the import lines of the text. -/
theorem withImports_text_of_ne_nil (h : s.imports ≠ []) {is : List ImportLine} (hne : is ≠ []) :
    withImports s.text (is.map ImportLine.text) = (s.addImports is).text := by
  have hentries : s.entries.map Entry.block ≠ [] := by simpa using s.entries_ne_nil
  have hadded : (is.map ImportLine.text).isEmpty = false := by simpa using hne
  -- The text starts with its import lines.
  have hstart : s.text = ImportLine.block s.imports ++ '\n' :: '\n' ::
      (joined ['\n', '\n'] (s.entries.map Entry.block) ++ ['\n']) := by
    rw [text, blocks_of_ne_nil h, joined_cons _ _ hentries]
    simp
  have hfirst := firstBlock_append (ImportLine.solid_block s.imports)
    (joined ['\n', '\n'] (s.entries.map Entry.block) ++ ['\n'])
  rw [← hstart] at hfirst
  have hblocks := blocks_of_ne_nil (s := s.addImports is) (by simp [h])
  have htext : (s.addImports is).text
      = ImportLine.block s.imports ++ ['\n'] ++ ImportLine.block is ++ (['\n', '\n'] ++
          (joined ['\n', '\n'] (s.entries.map Entry.block) ++ ['\n'])) := by
    rw [text, hblocks, imports_addImports, entries_addImports, joined_cons _ _ hentries,
      ImportLine.block_append h hne]
    simp only [List.append_assoc]
  rw [htext]
  simp only [withImports, hadded, hfirst, ImportLine.isImportBlock_block h,
    (ImportLine.trimmed_block h).dropEnd_self]
  rfl

/-- Adding import lines to the text of a sheet gives the text of the sheet with these lines. -/
theorem withImports_text (is : List ImportLine) :
    withImports s.text (is.map ImportLine.text) = (s.addImports is).text := by
  by_cases hne : is = []
  · rw [hne]
    simp [withImports, addImports]
  · by_cases h : s.imports = []
    · exact s.withImports_text_of_nil h hne
    · exact s.withImports_text_of_ne_nil h hne

/-- What the text of a sheet adds to a text: the declarations and the imports that are new there. -/
theorem additions_text (hr : r.Distinct) (old : List Char) :
    additions old r.text =
      { blocks := (newEntries (declaredNames old) r.entries).map Entry.block
        imports := (r.imports.filterMap
          (ImportLine.without (importedNames old ++ declaredNames old))).map ImportLine.text } := by
  have hentries := additionsFrom_entries hr.declared old (declaredNames old)
  -- What is added is found block by block; only the first one may be a block of imports.
  rw [additions, blocks_text]
  by_cases h : r.imports = []
  · rw [blocks_of_nil h, hentries, h]
    rfl
  · rw [blocks_of_ne_nil h, additionsFrom, ImportLine.isImportBlock_block h,
      ImportLine.typeImports_block, missingImports_lines hr.imported, hentries]
    simp

/-- Merging the texts of two sheets gives the text of the merged sheet. -/
theorem merge_text (hr : r.Distinct) : ModuleText.merge s.text r.text = (s.merge r).text := by
  rw [ModuleText.merge, r.additions_text hr, declaredNames_text, importedNames_text,
    withBlocks_text, withImports_text]
  rfl

/-! ## What merging adds -/

/-- The imported names that are neither imported nor declared are added. -/
theorem imported_merge :
    (s.merge r).imported = s.imported ++ unknown (s.imported ++ s.declared) r.imported := by
  rw [imported, merge, imports_addImports, imports_addEntries, List.flatMap_append,
    ImportLine.names_without]
  rfl

/-- The declared names that are not declared yet are added. -/
theorem declared_merge :
    (s.merge r).declared = s.declared ++ unknown s.declared r.declared := by
  rw [declared, merge, entries_addImports, entries_addEntries, List.map_append, newEntries,
    declared, declared, unknown, List.filter_map]
  rfl

/-- A declared name keeps its declaration. -/
theorem declarationOf?_merge (n : List Char) :
    (s.merge r).declarationOf? n = (s.declarationOf? n).or (r.declarationOf? n) := by
  rw [declarationOf?, merge, entries_addImports, entries_addEntries, List.find?_append,
    ← declarationOf?]
  cases hold : s.declarationOf? n with
  | some e => rfl
  | none =>
    -- The name is new, so its declaration is added.
    have hnew : n ∉ s.declared := fun hmem => by
      obtain ⟨e, he, rfl⟩ := List.mem_map.mp hmem
      exact absurd (List.find?_eq_none.mp hold e he) (by simp)
    have hfound : (fun e : Entry =>
        decide ((!s.declared.contains e.name) = true ∧ (e.name == n) = true))
        = fun e => e.name == n := by
      funext e
      by_cases hname : e.name = n
      · simp [hname, hnew]
      · simp [hname]
    rw [newEntries, List.find?_filter, hfound, declarationOf?]

variable {s r}

/-- Merging lets no name be declared or imported twice. -/
theorem Distinct.merge (hs : s.Distinct) (hr : r.Distinct) : (s.merge r).Distinct where
  imported := by
    rw [imported_merge]
    exact nodup_append_unknown hs.imported hr.imported (List.subset_append_left _ _)
  declared := by
    rw [declared_merge]
    exact nodup_append_unknown hs.declared hr.declared (List.Subset.refl _)

/-- The other sheet has nothing to add. -/
structure Covers (s r : Sheet) : Prop where
  /-- What it declares is declared. -/
  declared : r.declared ⊆ s.declared
  /-- What it imports is imported or declared. -/
  imported : r.imported ⊆ s.imported ++ s.declared

/-- A sheet stays as it is when nothing is added. -/
theorem Covers.merge_eq (h : s.Covers r) : s.merge r = s := by
  rw [merge, newEntries_of_subset h.declared, ImportLine.without_of_subset h.imported]
  simp [addEntries, addImports]

/-- A sheet has nothing to add to itself. -/
theorem covers_self (s : Sheet) : s.Covers s :=
  ⟨List.Subset.refl _, List.subset_append_left _ _⟩

/-- After a merge the merged sheet has nothing to add. -/
theorem covers_merge (s r : Sheet) : (s.merge r).Covers r where
  declared n hn := by
    rw [declared_merge, List.mem_append, mem_unknown]
    by_cases h : n ∈ s.declared
    · exact .inl h
    · exact .inr ⟨hn, h⟩
  imported n hn := by
    rw [imported_merge, declared_merge]
    by_cases h : n ∈ s.imported ++ s.declared
    · rcases List.mem_append.mp h with h | h <;> simp [h]
    · exact List.mem_append_left _ (List.mem_append_right _ (mem_unknown.mpr ⟨hn, h⟩))

/-- What has nothing to add has nothing to add later either. -/
theorem Covers.merge (h : s.Covers r) (q : Sheet) : (s.merge q).Covers r where
  declared n hn := by
    rw [declared_merge]
    exact List.mem_append_left _ (h.declared hn)
  imported n hn := by
    rw [imported_merge, declared_merge]
    rcases List.mem_append.mp (h.imported hn) with h | h <;> simp [h]

/-! ## Merging again and again -/

/-- What a sheet has after the given sheets were merged, the first of them first. -/
structure Gathers (m : Sheet) (rs : List Sheet) : Prop where
  /-- No name is declared or imported twice. -/
  distinct : m.Distinct
  /-- What any of the sheets declares is declared, and nothing else. -/
  declared : ∀ n, n ∈ m.declared ↔ ∃ r ∈ rs, n ∈ r.declared
  /-- The declaration of a name comes from the first sheet with one. -/
  entry : ∀ n, m.declarationOf? n = rs.findSome? fun r => r.declarationOf? n
  /-- None of the sheets has anything to add. -/
  covers : ∀ r ∈ rs, m.Covers r

/-- A sheet alone has what it has. -/
theorem gathers_self (h : s.Distinct) : s.Gathers [s] where
  distinct := h
  declared := by simp
  entry n := by
    rw [List.findSome?_singleton]
  covers := by simpa using s.covers_self

/-- One more merge gathers one more sheet. -/
theorem Gathers.merge {m : Sheet} {rs : List Sheet} (h : m.Gathers rs) (hr : r.Distinct) :
    (m.merge r).Gathers (rs ++ [r]) where
  distinct := h.distinct.merge hr
  declared n := by
    -- Whether the name was known decides where it comes from, not whether it is declared.
    have hmem : n ∈ (m.merge r).declared ↔ n ∈ m.declared ∨ n ∈ r.declared := by
      rw [declared_merge, List.mem_append, mem_unknown]
      by_cases hn : n ∈ m.declared <;> simp [hn]
    rw [hmem, h.declared]
    simp [or_and_right, exists_or]
  entry n := by
    rw [declarationOf?_merge, h.entry, List.findSome?_append, List.findSome?_singleton]
  covers r' hr' := by
    rcases List.mem_append.mp hr' with hr' | hr'
    · exact (h.covers r' hr').merge r
    · obtain rfl := List.mem_singleton.mp hr'
      exact m.covers_merge r'

/-- Merging sheets one after another gathers them. -/
theorem gathers_merged (first : Sheet) (later : List Sheet)
    (h : ∀ s ∈ first :: later, s.Distinct) :
    (later.foldl merge first).Gathers (first :: later) := by
  -- The sheets that were merged so far are carried along.
  have hrun : ∀ (later rs : List Sheet) (m : Sheet), m.Gathers rs → (∀ s ∈ later, s.Distinct) →
      (later.foldl merge m).Gathers (rs ++ later) := by
    intro later
    induction later with
    | nil => exact fun rs m hm _ => by simpa using hm
    | cons r later ih =>
      intro rs m hm hlater
      have hnext := ih (rs ++ [r]) (m.merge r) (hm.merge (hlater r List.mem_cons_self))
        fun s hs => hlater s (List.mem_cons_of_mem _ hs)
      rwa [List.append_assoc, List.singleton_append] at hnext
  exact hrun later [first] first (gathers_self (h first List.mem_cons_self))
    fun s hs => h s (List.mem_cons_of_mem _ hs)

/-- The texts of sheets merged one after another make the text of the merged sheets. -/
theorem foldl_merge_text {later : List Sheet} (h : ∀ r ∈ later, r.Distinct) (m : Sheet) :
    (later.map text).foldl ModuleText.merge m.text = (later.foldl merge m).text := by
  induction later generalizing m with
  | nil => rfl
  | cons r later ih =>
    rw [List.map_cons, List.foldl_cons, m.merge_text r (h r List.mem_cons_self), List.foldl_cons]
    exact ih (fun r hr => h r (List.mem_cons_of_mem _ hr)) (m.merge r)

end Sheet

end ClientGen.ModuleText
