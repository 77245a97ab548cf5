import ClientGen.Proofs.Model.Rendering

/-!
# Texts that are merged again and again

A model file is the text of a module, merged with the texts of modules of later passes. It keeps
every declaration as it was first written, and loses none.

* `Generation.Rendered`: the text of a module after some pass.
* `ModuleText.mergeAll`: texts merged one after another.
* `ModuleText.Gathered`: what a text has of the texts that were merged into it.
* `Generation.gathered_of_rendered`: texts of modules are gathered when they are merged.
-/

namespace ClientGen

namespace ModuleText

/-- The first text with the later ones merged into it, one after another. -/
def mergeAll (first : String) (later : List String) : String := later.foldl mergeTexts first

/-- What a text has of some texts, the first of them first. -/
structure Gathered (text : String) (texts : List String) : Prop where
  /-- No name is declared twice. -/
  declared_once : (declaredNames text.toList).Nodup
  /-- The names that any of the texts declares are declared, and no others. -/
  declared : ∀ n, n ∈ declaredNames text.toList ↔ ∃ r ∈ texts, n ∈ declaredNames r.toList
  /-- The block of a name is that of the first text that declares it. -/
  block : ∀ earlier r later n, texts = earlier ++ r :: later →
    (∀ q ∈ earlier, n ∉ declaredNames q.toList) → n ∈ declaredNames r.toList →
    ∃ b, blockOf? n r.toList = some b ∧ blockOf? n text.toList = some b
  /-- No name is imported twice. -/
  imported_once : (importedNames text.toList).Nodup
  /-- Merging one of the texts again changes nothing. -/
  unchanged : ∀ r ∈ texts, mergeTexts text r = text

theorem toList_mergeTexts (old new : String) :
    (mergeTexts old new).toList = merge old.toList new.toList := String.toList_ofList

/-- Merging several texts into one merges their characters, one text after another. -/
theorem toList_mergeAll (first : String) (later : List String) :
    (mergeAll first later).toList = (later.map String.toList).foldl merge first.toList := by
  unfold mergeAll
  induction later generalizing first with
  | nil => rfl
  | cons r later ih => rw [List.foldl_cons, ih, toList_mergeTexts, List.map_cons, List.foldl_cons]

namespace Sheet

variable {s m : Sheet} {n : List Char}

/-- A name that is declared has a block, and no other name has. -/
theorem isSome_blockOf?_text : (blockOf? n s.text).isSome ↔ n ∈ declaredNames s.text := by
  rw [blockOf?_text, declaredNames_text, Option.isSome_map, declarationOf?, List.find?_isSome,
    declared, List.mem_map]
  simp

/-- The text of a sheet that gathers some sheets gathers their texts. -/
theorem Gathers.gathered {sheets : List Sheet} (h : m.Gathers sheets)
    (hdistinct : ∀ s ∈ sheets, s.Distinct) {text : String} {texts : List String}
    (htext : text.toList = m.text) (htexts : texts.map String.toList = sheets.map Sheet.text) :
    Gathered text texts := by
  -- Every text is that of one of the sheets.
  have hsheet : ∀ r ∈ texts, ∃ s ∈ sheets, r.toList = s.text := by
    intro r hr
    have hmem : r.toList ∈ sheets.map Sheet.text := htexts ▸ List.mem_map_of_mem hr
    obtain ⟨s, hs, heq⟩ := List.mem_map.mp hmem
    exact ⟨s, hs, heq.symm⟩
  -- What is known of declarations carries over to the blocks in the texts.
  have hblock : ∀ n, blockOf? n text.toList = texts.findSome? fun r => blockOf? n r.toList := by
    intro n
    have hfound : ∀ ss : List Sheet, (ss.findSome? fun s => s.declarationOf? n).map Entry.block
        = (ss.map Sheet.text).findSome? (blockOf? n) := by
      intro ss
      rw [List.findSome?_map, List.map_findSome?]
      simp only [Function.comp_def, blockOf?_text]
    rw [htext, blockOf?_text, h.entry, hfound, ← htexts, List.findSome?_map]
    rfl
  refine ⟨?_, fun n => ?_, ?_, ?_, fun r hr => ?_⟩
  · rw [htext, declaredNames_text]
    exact h.distinct.declared
  · rw [htext, declaredNames_text, h.declared]
    have hiff : (∃ s ∈ sheets, n ∈ s.declared) ↔
        ∃ cs ∈ sheets.map Sheet.text, n ∈ declaredNames cs := by
      simp [declaredNames_text]
    rw [hiff, ← htexts]
    simp
  · intro earlier r later n hsplit hearlier hr
    obtain ⟨s, -, hs⟩ := hsheet r (by simp [hsplit])
    rw [hs, ← isSome_blockOf?_text] at hr
    obtain ⟨b, hb⟩ := Option.isSome_iff_exists.mp hr
    -- The texts before do not declare the name, and so have no block of it.
    have hnone : (earlier.findSome? fun q => blockOf? n q.toList) = none := by
      refine List.findSome?_eq_none_iff.mpr fun q hq => ?_
      obtain ⟨s', -, hs'⟩ := hsheet q (by simp [hsplit, hq])
      have hnot := hearlier q hq
      rw [hs', ← isSome_blockOf?_text, Option.not_isSome_iff_eq_none] at hnot
      rwa [hs']
    refine ⟨b, hs ▸ hb, ?_⟩
    rw [hblock, hsplit, List.findSome?_append, hnone, Option.none_or, List.findSome?_cons, hs, hb]
  · rw [htext, importedNames_text]
    exact h.distinct.imported
  · obtain ⟨s, hs, heq⟩ := hsheet r hr
    rw [← String.toList_inj, toList_mergeTexts, htext, heq, m.merge_text s (hdistinct s hs),
      (h.covers s hs).merge_eq]

end Sheet

end ModuleText

namespace Generation

open ModuleText

/-- The text of a module after a pass that went through. -/
def Rendered (text : String) : Prop :=
  ∃ (e : Expander) (catalog : Catalog) (s t : Session) (models : ModelSet) (module : String),
    (Generation.models e catalog).run s = (.ok models, t) ∧ module ∈ models.modules ∧
      text = models.render module

/-- A rendered text is that of a sheet in which nothing is declared or imported twice. -/
theorem Rendered.exists_sheet {text : String} (h : Rendered text) :
    ∃ sheet : Sheet, sheet.Distinct ∧ sheet.text = text.toList := by
  obtain ⟨e, catalog, s, t, models, module, hrun, hmodule, rfl⟩ := h
  obtain ⟨sheet, hdistinct, htext, -⟩ := Generation.exists_sheet hrun hmodule
  exact ⟨sheet, hdistinct, htext⟩

/-- Rendered texts are those of sheets in which nothing is declared or imported twice. -/
theorem exists_sheets {texts : List String} (h : ∀ r ∈ texts, Rendered r) :
    ∃ sheets : List Sheet, (∀ s ∈ sheets, s.Distinct) ∧
      sheets.map Sheet.text = texts.map String.toList := by
  induction texts with
  | nil => exact ⟨[], by simp, rfl⟩
  | cons r texts ih =>
    obtain ⟨s, hs, htext⟩ := (h r List.mem_cons_self).exists_sheet
    obtain ⟨sheets, hsheets, htexts⟩ := ih fun q hq => h q (List.mem_cons_of_mem _ hq)
    exact ⟨s :: sheets, List.forall_mem_cons.mpr ⟨hs, hsheets⟩,
      by rw [List.map_cons, List.map_cons, htext, htexts]⟩

/-- Texts of modules that are merged one after another are gathered: each name that any of them
declares is declared once, by the block of the first of them that declares it, no name is imported
twice, and merging any of them again changes nothing. -/
theorem gathered_of_rendered {first : String} {later : List String}
    (h : ∀ r ∈ first :: later, Rendered r) : Gathered (mergeAll first later) (first :: later) := by
  rw [List.forall_mem_cons] at h
  obtain ⟨s, hs, htext⟩ := h.1.exists_sheet
  obtain ⟨sheets, hsheets, htexts⟩ := exists_sheets h.2
  have hdistinct : ∀ s' ∈ s :: sheets, s'.Distinct := List.forall_mem_cons.mpr ⟨hs, hsheets⟩
  have hmerged : (mergeAll first later).toList = (sheets.foldl Sheet.merge s).text := by
    rw [toList_mergeAll, ← htext, ← htexts]
    exact Sheet.foldl_merge_text hsheets s
  refine (Sheet.gathers_merged s sheets hdistinct).gathered hdistinct hmerged ?_
  rw [List.map_cons, List.map_cons, htext, htexts]

/-- The texts of two modules of one pass, and the first of them once more. -/
theorem gathered_of_rendered_modules :
    let apple := modelModels.render "apple"
    let berry := modelModels.render "berry"
    (∀ r ∈ [apple, berry, apple], Rendered r) ∧
      Gathered (mergeAll apple [berry, apple]) [apple, berry, apple] := by
  intro apple berry
  obtain ⟨-, t, hrun⟩ := run_modelDocument
  have happle : Rendered apple :=
    ⟨_, _, _, t, modelModels, "apple", hrun, by simp [ModelSet.modules, modelModels], rfl⟩
  have hberry : Rendered berry :=
    ⟨_, _, _, t, modelModels, "berry", hrun, by simp [ModelSet.modules, modelModels], rfl⟩
  have h : ∀ r ∈ [apple, berry, apple], Rendered r := by simp [happle, hberry]
  exact ⟨h, gathered_of_rendered h⟩

end Generation

end ClientGen
