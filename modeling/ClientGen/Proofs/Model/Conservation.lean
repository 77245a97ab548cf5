import ClientGen.Proofs.Model.ImportBlock
import ClientGen.Proofs.Model.MergedTexts

/-!
# What merging puts into a text

Whatever two texts are merged, edited by hand or not, the lines of the old one that are not blank
stay as they are, in their order. What is put in between and behind them comes from the new text.

* `ModuleText.leadingImports`: the lines of a text behind which imports are put in.
* `ModuleText.contentLines_withBlocks`, `ModuleText.exists_contentLines_withImports`: where blocks
  and imports are put in.
* `ModuleText.TakenFrom`: additions that come from some blocks, and
  `ModuleText.additionsFrom_takenFrom`.
* `ModuleText.Extends`: a text with imports and with blocks of another one put in, and
  `ModuleText.exists_extends_mergeTexts`: merged texts are of this kind.
-/

namespace ClientGen.ModuleText

open Text

variable {b : List Char}

/-! ## Where additions are put in -/

/-- The imports that a text starts with: the lines of its first block that are not blank, if all of
them are imports. -/
def leadingImports (cs : List Char) : List (List Char) :=
  if isImportBlock (firstBlock cs).1 then contentLines (firstBlock cs).1 else []

/-- The leading imports depend on nothing but the lines of the first block. -/
theorem leadingImports_congr {a : List Char}
    (h : contentLines (firstBlock a).1 = contentLines (firstBlock b).1) :
    leadingImports a = leadingImports b := by
  rw [leadingImports, leadingImports, isImportBlock_congr h, h]

/-- Blocks are put in behind all lines of the text. -/
theorem contentLines_withBlocks (cs : List Char) (added : List (List Char)) :
    contentLines (withBlocks cs added) = contentLines cs ++ added.flatMap contentLines := by
  rw [withBlocks]
  split
  · rename_i hnone
    rw [List.isEmpty_iff.mp hnone, List.flatMap_nil, List.append_nil]
  · simp only [List.append_assoc, List.cons_append, List.nil_append, contentLines_append,
      contentLines_lineFeed, contentLines_dropEnd, contentLines_joined_blankLine, contentLines_nil,
      List.append_nil]

/-- Blocks that are put behind a text leave its leading imports as they are. -/
theorem leadingImports_withBlocks (cs : List Char) (added : List (List Char)) :
    leadingImports (withBlocks cs added) = leadingImports cs := by
  refine leadingImports_congr ?_
  rw [withBlocks]
  split
  · rfl
  · simp only [List.append_assoc, List.cons_append, List.nil_append]
    rw [contentLines_firstBlock_append, contentLines_firstBlock_dropEnd]

/-- Import lines are put in behind the leading imports. -/
theorem exists_contentLines_withImports (cs : List Char) {ls : List (List Char)}
    (h : ∀ l ∈ ls, IsLine l) : ∃ rest, contentLines cs = leadingImports cs ++ rest ∧
      contentLines (withImports cs ls) = leadingImports cs ++ ls ++ rest := by
  have hlines : contentLines (joined ['\n'] ls) = ls := by
    rw [contentLines_joined]
    calc ls.flatMap contentLines = ls.flatMap fun l => [l] :=
          List.flatMap_congr fun l hl => contentLines_of_isLine (h l hl)
      _ = ls := List.flatMap_singleton' ls
  have hsplit := contentLines_eq cs
  rw [withImports, leadingImports]
  cases hfirst : firstBlock cs with
  | mk first rest =>
    rw [hfirst] at hsplit
    by_cases himports : isImportBlock first
    · -- The imports stand between the first block and the rest of the text, if there is one.
      refine ⟨contentLines (rest.getD []), by simpa [himports] using hsplit, ?_⟩
      rcases ls with _ | ⟨l, ls⟩
      · simpa [himports] using hsplit
      · cases rest <;> simp [himports, hlines, contentLines_dropEnd]
    · -- The imports stand in front of the whole text.
      refine ⟨contentLines cs, by simp [himports], ?_⟩
      rcases ls with _ | ⟨l, ls⟩
      · simp [himports]
      · simp [himports, hlines]

/-- Import lines are put in one below the other. -/
theorem joined_infix_withImports (cs : List Char) (ls : List (List Char)) :
    joined ['\n'] ls <:+: withImports cs ls := by
  rw [withImports]
  split
  · rename_i hnone
    rw [List.isEmpty_iff.mp hnone]
    exact List.nil_infix
  · dsimp only
    split
    · exact ⟨_, _, rfl⟩
    · exact ⟨[], ['\n', '\n'] ++ cs, by simp⟩

/-- Blocks and import lines are put in behind the leading imports and behind the last line. -/
theorem exists_contentLines_withAdditions (old : List Char) {added : Additions}
    (h : ∀ l ∈ added.imports, IsLine l) : ∃ rest, contentLines old = leadingImports old ++ rest ∧
      contentLines (withImports (withBlocks old added.blocks) added.imports)
        = leadingImports old ++ added.imports ++ rest ++ added.blocks.flatMap contentLines := by
  -- The lines behind the leading imports of the old text are the same with blocks put in.
  have hnone : ∀ l ∈ ([] : List (List Char)), IsLine l := by simp
  obtain ⟨rest, hold, -⟩ := exists_contentLines_withImports old hnone
  obtain ⟨rest', hwith, hmerged⟩ :=
    exists_contentLines_withImports (withBlocks old added.blocks) h
  rw [leadingImports_withBlocks] at hwith hmerged
  rw [contentLines_withBlocks, hold, List.append_assoc, List.append_cancel_left_eq] at hwith
  exact ⟨rest, hold, by rw [hmerged, ← hwith, List.append_assoc _ rest]⟩

/-! ## Where additions come from -/

/-- Additions to a text that declares some names, taken from some blocks. -/
structure TakenFrom (added : Additions) (known bs : List (List Char)) : Prop where
  /-- The added blocks are some of the blocks, in their order. -/
  blocks : added.blocks.Sublist bs
  /-- Each of them declares a name. -/
  declares : ∀ b ∈ added.blocks, declaredNames b ≠ []
  /-- None of them declares a known name. -/
  fresh : ∀ b ∈ added.blocks, ∀ n ∈ declaredNames b, n ∉ known
  /-- The added imports are import lines. -/
  imports : ∀ l ∈ added.imports, IsImportLine l

/-- What is added from some blocks is taken from them, in their order, and is not declared yet. -/
theorem additionsFrom_takenFrom (old : List Char) (known bs : List (List Char)) :
    TakenFrom (additionsFrom old known bs) known bs := by
  induction bs generalizing known with
  | nil => exact ⟨List.Sublist.slnil, by simp [additionsFrom], by simp [additionsFrom],
      by simp [additionsFrom]⟩
  | cons b bs ih =>
    rw [additionsFrom]
    split
    · rename_i himports
      have hrest := ih known
      exact ⟨hrest.blocks.cons b, hrest.declares, hrest.fresh, List.forall_mem_append.mpr
        ⟨isImportLine_of_mem_missingImports himports _, hrest.imports⟩⟩
    · dsimp only
      split
      · have hrest := ih known
        exact ⟨hrest.blocks.cons b, hrest.declares, hrest.fresh, hrest.imports⟩
      · rename_i hnew
        have hrest := ih (known ++ declaredNames b)
        simp only [Bool.or_eq_true, not_or, List.isEmpty_iff, List.any_eq_true,
          List.contains_iff_mem, not_exists, not_and] at hnew
        -- The names that a later block may not declare are only more.
        have hlater : ∀ b' ∈ (additionsFrom old (known ++ declaredNames b) bs).blocks,
            ∀ n ∈ declaredNames b', n ∉ known := fun b' hb' n hn hmem =>
          hrest.fresh b' hb' n hn (List.mem_append_left _ hmem)
        exact ⟨hrest.blocks.cons_cons b, List.forall_mem_cons.mpr ⟨hnew.1, hrest.declares⟩,
          List.forall_mem_cons.mpr ⟨hnew.2, hlater⟩, hrest.imports⟩

/-- What a merge adds is taken from the blocks of the new text, and is not declared in the old
one. -/
theorem additions_takenFrom (old new : List Char) :
    TakenFrom (additions old new) (declaredNames old) (blocks (dropLineFeeds new)) :=
  additionsFrom_takenFrom old (declaredNames old) (blocks (dropLineFeeds new))

/-- A declaration starts with an `e`, so that a block with one has a line with it. -/
theorem exists_of_declaredNames_ne_nil (h : declaredNames b ≠ []) :
    ∃ l ∈ contentLines b, 'e' ∈ l := by
  obtain ⟨n, hn⟩ := List.exists_mem_of_ne_nil _ h
  obtain ⟨front, rest, tail, rfl, -, hfound⟩ := exists_of_mem_lineMatches hn
  have hhead : rest.head? = some 'e' := by
    by_contra hne
    rw [declaration?_of_head hne] at hfound
    cases hfound
  exact exists_mem_contentLines (List.mem_append_right _ (List.mem_of_head? hhead)) (by decide)
    (by decide)

/-! ## Merged texts -/

/-- A text is another one with import lines put in, and with blocks of a third one. Lines are those
that are not blank. -/
structure Extends (old new merged : List Char) (imports added : List (List Char)) : Prop where
  /-- The lines of the old text stay as they are, in their order. The imports follow its leading
  imports or, if it has none, start the text. The blocks follow its last line. -/
  lines : ∃ rest, contentLines old = leadingImports old ++ rest ∧
    contentLines merged = leadingImports old ++ imports ++ rest ++ added.flatMap contentLines
  /-- The imports stand one below the other, without blank lines. -/
  run : joined ['\n'] imports <:+: merged
  /-- Each of them is a line that imports types. -/
  isImport : ∀ l ∈ imports, IsImportLine l
  /-- The blocks are blocks of the new text, in their order. -/
  blocks : added.Sublist (blocks (dropLineFeeds new))
  /-- Their lines are some of the paragraphs of the new text. -/
  paragraphs : (added.map contentLines).Sublist (paragraphs new)
  /-- Each of them declares a name. -/
  declares : ∀ b ∈ added, declaredNames b ≠ []
  /-- None of them declares a name that the old text declares. -/
  fresh : ∀ b ∈ added, ∀ n ∈ declaredNames b, n ∉ declaredNames old
  /-- If no line is put in, the text is the old one. -/
  unchanged : contentLines merged = contentLines old → merged = old

/-- A merge extends the old text by what it adds. -/
theorem extends_merge (old new : List Char) :
    Extends old new (merge old new) (additions old new).imports (additions old new).blocks := by
  obtain ⟨hblocks, hdeclares, hfresh, himports⟩ := additions_takenFrom old new
  rw [merge]
  generalize additions old new = added at hblocks hdeclares hfresh himports
  have hcontent : ∀ b ∈ added.blocks, contentLines b ≠ [] := by
    intro b hb
    obtain ⟨l, hl, -⟩ := exists_of_declaredNames_ne_nil (hdeclares b hb)
    exact List.ne_nil_of_mem hl
  obtain ⟨rest, hold, hmerged⟩ :=
    exists_contentLines_withAdditions old fun l hl => (himports l hl).toIsLine
  refine ⟨⟨rest, hold, hmerged⟩, joined_infix_withImports _ _, himports, hblocks, ?_, hdeclares,
    hfresh, fun hsame => ?_⟩
  · -- Blocks without lines are not added, so that every added block has its paragraph.
    have hall : (added.blocks.map contentLines).filter (· ≠ []) = added.blocks.map contentLines :=
      List.filter_eq_self.mpr (List.forall_mem_map.mpr fun b hb => by simpa using hcontent b hb)
    rw [← paragraphs_dropLineFeeds, paragraphs_eq, ← hall]
    exact (hblocks.map contentLines).filter _
  · -- Every addition has a line, so that without further lines there are none.
    rw [hmerged, hold] at hsame
    have hlength := congrArg List.length hsame
    simp only [List.length_append] at hlength
    have hnoImports : added.imports = [] := List.eq_nil_of_length_eq_zero (by omega)
    have hnoLines : added.blocks.flatMap contentLines = [] :=
      List.eq_nil_of_length_eq_zero (by omega)
    have hnoBlocks : added.blocks = [] := List.eq_nil_iff_forall_not_mem.mpr fun b hb =>
      hcontent b hb (List.flatMap_eq_nil_iff.mp hnoLines b hb)
    rw [hnoImports, hnoBlocks]
    rfl

/-- Whatever two texts are merged, the lines of the old one stay as they are, in their order. What
is put in are import lines, behind its leading imports or at its top, and behind all its lines
blocks of the new text that declare names, none of which the old text declares. If nothing is put
in, the old text is left as it is. -/
theorem exists_extends_mergeTexts (old new : String) : ∃ imports added,
    Extends old.toList new.toList (mergeTexts old new).toList imports added := by
  rw [toList_mergeTexts]
  exact ⟨_, _, extends_merge old.toList new.toList⟩

/-- A comment that somebody wrote stays where it is. -/
example : mergeTexts
    "import type \x7b IA \x7d from './a';\n\n// mine\nexport type IB = IA;\n\n\n"
    "import type \x7b IA, IC \x7d from './a';\n\nexport type IB = IC;\n\nexport type ID = IC;\n"
    = "import type \x7b IA \x7d from './a';\nimport type \x7b IC \x7d from './a';\n\n"
      ++ "// mine\nexport type IB = IA;\n\nexport type ID = IC;\n" := by
  decide +kernel

end ClientGen.ModuleText
