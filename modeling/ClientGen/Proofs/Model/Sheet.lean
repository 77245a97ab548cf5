import ClientGen.Proofs.Model.Entry

/-!
# Sheets

A module text as a list of import lines and a list of declarations. The text of a sheet is read back
as the sheet says.

* `ModuleText.Sheet`, `ModuleText.Sheet.text`: a sheet and its text.
* `Sheet.declaredNames_text`, `Sheet.typeImports_text`, `Sheet.importedNames_text`,
  `Sheet.blocks_text`: how the text is read.
* `ModuleText.blockOf?`: the block of a text that declares a name.
-/

namespace ClientGen.ModuleText

open Text

/-- The import lines and the declarations of a module text. -/
structure Sheet where
  /-- The import lines. -/
  imports : List ImportLine
  /-- The declarations. -/
  entries : List Entry
  /-- Something is declared. -/
  entries_ne_nil : entries ≠ []

namespace Sheet

variable (s : Sheet)

/-- The imported names. -/
def imported : List (List Char) := s.imports.flatMap ImportLine.names

/-- The declared names. -/
def declared : List (List Char) := s.entries.map Entry.name

/-- The import lines as the first paragraph, if there are any. -/
def importParagraph (imports : List ImportLine) : List (List (List Char)) :=
  if imports = [] then [] else [imports.map ImportLine.text]

/-- The lines of the text, in paragraphs with a blank line between neighbours. -/
def paragraphs : List (List (List Char)) :=
  importParagraph s.imports ++ s.entries.map Entry.lines

/-- The blocks of the text. -/
def blocks : List (List Char) := s.paragraphs.map (joined ['\n'])

/-- The text. -/
def text : List Char := joined ['\n', '\n'] s.blocks ++ ['\n']

variable {s}

/-- A paragraph of a sheet is its import lines, or a declaration. -/
theorem mem_paragraphs {p : List (List Char)} (h : p ∈ s.paragraphs) :
    (s.imports ≠ [] ∧ p = s.imports.map ImportLine.text) ∨ ∃ e ∈ s.entries, p = e.lines := by
  rcases List.mem_append.mp h with h | h
  · rw [importParagraph] at h
    split at h
    · exact absurd h List.not_mem_nil
    · rename_i hne
      exact .inl ⟨hne, List.mem_singleton.mp h⟩
  · obtain ⟨e, he, rfl⟩ := List.mem_map.mp h
    exact .inr ⟨e, he, rfl⟩

/-- A paragraph of a sheet has lines, and none of them is blank. -/
theorem isLine_of_mem {p : List (List Char)} (h : p ∈ s.paragraphs) :
    p ≠ [] ∧ ∀ l ∈ p, IsLine l := by
  rcases mem_paragraphs h with ⟨hne, rfl⟩ | ⟨e, he, rfl⟩
  · refine ⟨by simpa using hne, fun l hl => ?_⟩
    obtain ⟨i, -, rfl⟩ := List.mem_map.mp hl
    exact i.isLine_text
  · exact ⟨e.lines_ne_nil, fun _ hl => e.isLine_of_mem hl⟩

/-- Without imports the blocks are the declarations. -/
theorem blocks_of_nil (h : s.imports = []) : s.blocks = s.entries.map Entry.block := by
  simp [blocks, paragraphs, importParagraph, h, Entry.block, Function.comp_def]

/-- The imports are a block in front of the declarations. -/
theorem blocks_of_ne_nil (h : s.imports ≠ []) :
    s.blocks = ImportLine.block s.imports :: s.entries.map Entry.block := by
  simp [blocks, paragraphs, importParagraph, h, ImportLine.block, Entry.block, Function.comp_def]

theorem blocks_ne_nil : s.blocks ≠ [] := by
  simp [blocks, paragraphs, s.entries_ne_nil]

/-- No block of a sheet has a blank line inside. -/
theorem solid_of_mem {b : List Char} (h : b ∈ s.blocks) : Solid b := by
  obtain ⟨p, hp, rfl⟩ := List.mem_map.mp h
  exact solid_joined (isLine_of_mem hp).2

/-- The blocks of a sheet have no blanks around them, with blank lines between them. -/
theorem trimmed_blocks : Trimmed (joined ['\n', '\n'] s.blocks) := by
  refine trimmed_joined blocks_ne_nil fun b hb => ?_
  obtain ⟨p, hp, rfl⟩ := List.mem_map.mp hb
  obtain ⟨hne, hlines⟩ := isLine_of_mem hp
  exact trimmed_joined hne fun l hl => (hlines l hl).trimmed

variable (s)

/-- The text is cut into its blocks. -/
theorem blocks_text : ModuleText.blocks (dropLineFeeds s.text) = s.blocks := by
  rw [text, trimmed_blocks.dropLineFeeds]
  exact blocks_joined blocks_ne_nil fun _ => solid_of_mem

/-- The text declares the names of the declarations. -/
theorem declaredNames_text : declaredNames s.text = s.declared := by
  -- Line by line, an import declares nothing and an entry only its own name.
  have hread : ∀ p ∈ s.paragraphs, ∀ l ∈ p, ReadAlone declaration? l := by
    intro p hp
    rcases mem_paragraphs hp with ⟨-, rfl⟩ | ⟨e, -, rfl⟩
    · exact List.forall_mem_map.mpr fun i _ => i.declares_nothing_text.toReadAlone
    · exact e.readAlone_declaration?.1
  have hnone : (importParagraph s.imports).flatMap (fun p => p.flatMap (found declaration?))
      = [] := by
    rw [importParagraph]
    split
    · rfl
    · rw [List.flatMap_singleton]
      refine List.flatMap_eq_nil_iff.mpr ?_
      exact List.forall_mem_map.mpr fun i _ => i.declares_nothing_text.finds
  have hentries : ∀ es : List Entry,
      (es.map Entry.lines).flatMap (fun p => p.flatMap (found declaration?))
        = es.map Entry.name := by
    intro es
    induction es with
    | nil => rfl
    | cons e es ih =>
      rw [List.map_cons, List.flatMap_cons, ih, e.readAlone_declaration?.2]
      rfl
  rw [declaredNames, text, blocks, lineMatches_paragraphs
    (fun _ => declaration?_of_head (by simp)) (fun _ hp => (isLine_of_mem hp).1) hread,
    paragraphs, List.flatMap_append, hnone, hentries]
  rfl

/-- The text imports by its import lines. -/
theorem typeImports_text :
    typeImports s.text = s.imports.map fun i => (i.listing, i.source) := by
  -- And the other way round, an entry imports nothing.
  have hread : ∀ p ∈ s.paragraphs, ∀ l ∈ p, ReadAlone typeImport? l := by
    intro p hp
    rcases mem_paragraphs hp with ⟨-, rfl⟩ | ⟨e, -, rfl⟩
    · exact List.forall_mem_map.mpr fun i _ => i.reads_text.toReadAlone
    · exact fun l hl => (e.imports_nothing_of_mem hl).toReadAlone
  have hnone : (s.entries.map Entry.lines).flatMap (fun p => p.flatMap (found typeImport?))
      = [] := by
    refine List.flatMap_eq_nil_iff.mpr fun p hp => ?_
    obtain ⟨e, -, rfl⟩ := List.mem_map.mp hp
    exact List.flatMap_eq_nil_iff.mpr fun l hl => (e.imports_nothing_of_mem hl).finds
  rw [typeImports, text, blocks, lineMatches_paragraphs
    (fun _ => typeImport?_of_head (by simp)) (fun _ hp => (isLine_of_mem hp).1) hread,
    paragraphs, List.flatMap_append, hnone, List.append_nil, importParagraph]
  split
  · rename_i himports
    rw [himports]
    rfl
  · rw [List.flatMap_singleton]
    exact ImportLine.flatMap_found s.imports

/-- The text imports the names of the import lines. -/
theorem importedNames_text : importedNames s.text = s.imported := by
  rw [importedNames, typeImports_text, imported]
  simp [List.flatMap_map, ImportLine.listedNames_listing]

/-- The declaration of a name. -/
def declarationOf? (n : List Char) : Option Entry := s.entries.find? fun e => e.name == n

end Sheet

/-- The block of a text that declares a name: the first one, if there are more. -/
def blockOf? (n cs : List Char) : Option (List Char) :=
  (blocks (dropLineFeeds cs)).find? fun b => (declaredNames b).contains n

/-- In the text of a sheet the block of a name is that of its declaration. -/
theorem Sheet.blockOf?_text (s : Sheet) (n : List Char) :
    blockOf? n s.text = (s.declarationOf? n).map Entry.block := by
  -- The blocks are looked through by the names they declare, the entries by their own.
  have hentries : (s.entries.map Entry.block).find? (fun b => (declaredNames b).contains n)
      = (s.declarationOf? n).map Entry.block := by
    have hname : (fun b => (declaredNames b).contains n) ∘ Entry.block
        = fun e => e.name == n := by
      funext e
      rw [Function.comp_apply, e.declaredNames_block, List.contains_cons, List.contains_nil,
        Bool.or_false]
      exact BEq.comm
    rw [List.find?_map, hname, declarationOf?]
  rw [blockOf?, blocks_text]
  by_cases h : s.imports = []
  · rw [blocks_of_nil h, hentries]
  · rw [blocks_of_ne_nil h, List.find?_cons_of_neg, hentries]
    simp [ImportLine.declaredNames_block]

end ClientGen.ModuleText
