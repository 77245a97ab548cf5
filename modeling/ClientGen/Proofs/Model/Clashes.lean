import ClientGen.Proofs.Model.MergedTexts
import ClientGen.Proofs.Model.ReadBack

/-!
# Names that are both imported and declared

The imports of a new text are held against the names that the old text imports and those that it
declares. Its declarations are held against the declared names alone. A name that moves from one
module to another between two passes can end up imported and declared in one text.

* `ModuleText.Clashes`: a name is both imported and declared.
* `Generation.Written`: the text of a module, or such texts merged.
* `Generation.clashes_mergeTexts_iff`: which names clash in a merged text.
* `Generation.exists_clash_of_moved_name`: two passes after which a name clashes.
-/

namespace ClientGen

open ModuleText

namespace ModuleText

/-- The text imports the name and declares it. -/
def Clashes (text : String) (n : List Char) : Prop :=
  n ∈ importedNames text.toList ∧ n ∈ declaredNames text.toList

namespace Sheet

variable {s r : Sheet} {n : List Char}

/-- What is imported after a merge was imported, or is new and was not declared. -/
theorem mem_imported_merge :
    n ∈ (s.merge r).imported ↔ n ∈ s.imported ∨ n ∈ r.imported ∧ n ∉ s.declared := by
  rw [imported_merge, List.mem_append, mem_unknown, List.mem_append]
  tauto

/-- What is declared after a merge was declared or is new. -/
theorem mem_declared_merge : n ∈ (s.merge r).declared ↔ n ∈ s.declared ∨ n ∈ r.declared := by
  rw [declared_merge, List.mem_append, mem_unknown]
  tauto

end Sheet

end ModuleText

namespace Generation

/-- The text of a module after a pass, or such texts merged. -/
inductive Written : String → Prop where
  /-- The text of a module. -/
  | rendered {text : String} (h : Rendered text) : Written text
  /-- Two texts merged. -/
  | merged {old new : String} (hold : Written old) (hnew : Written new) :
    Written (mergeTexts old new)

/-- A written text is that of a sheet in which nothing is declared or imported twice. -/
theorem Written.exists_sheet {text : String} (h : Written text) :
    ∃ sheet : Sheet, sheet.Distinct ∧ sheet.text = text.toList := by
  induction h with
  | rendered h => exact h.exists_sheet
  | merged _ _ ihold ihnew =>
    obtain ⟨s, hs, htext⟩ := ihold
    obtain ⟨r, hr, htext'⟩ := ihnew
    exact ⟨s.merge r, hs.merge hr, by rw [toList_mergeTexts, ← htext, ← htext', s.merge_text r hr]⟩

variable {old new : String}

/-- A merged text imports what the old text imports, and what only the new one knows of. -/
theorem mem_importedNames_mergeTexts (hold : Written old) (hnew : Written new) (n : List Char) :
    n ∈ importedNames (mergeTexts old new).toList ↔ n ∈ importedNames old.toList ∨
      n ∈ importedNames new.toList ∧ n ∉ declaredNames old.toList := by
  obtain ⟨s, -, hs⟩ := hold.exists_sheet
  obtain ⟨r, hr, hr'⟩ := hnew.exists_sheet
  rw [toList_mergeTexts, ← hs, ← hr', s.merge_text r hr]
  simp only [Sheet.importedNames_text, Sheet.declaredNames_text, Sheet.mem_imported_merge]

/-- A merged text declares what either text declares. -/
theorem mem_declaredNames_mergeTexts (hold : Written old) (hnew : Written new) (n : List Char) :
    n ∈ declaredNames (mergeTexts old new).toList ↔
      n ∈ declaredNames old.toList ∨ n ∈ declaredNames new.toList := by
  obtain ⟨s, -, hs⟩ := hold.exists_sheet
  obtain ⟨r, hr, hr'⟩ := hnew.exists_sheet
  rw [toList_mergeTexts, ← hs, ← hr', s.merge_text r hr]
  simp only [Sheet.declaredNames_text, Sheet.mem_declared_merge]

/-- Where neither text both imports and declares a name, the merged text does so for those names
that the old text imports and the new one declares, and for no others. -/
theorem clashes_mergeTexts_iff (hold : Written old) (hnew : Written new)
    (holdClash : ∀ n, ¬ Clashes old n) (hnewClash : ∀ n, ¬ Clashes new n) (n : List Char) :
    Clashes (mergeTexts old new) n ↔
      n ∈ importedNames old.toList ∧ n ∈ declaredNames new.toList := by
  have hold' := holdClash n
  have hnew' := hnewClash n
  unfold Clashes at hold' hnew' ⊢
  rw [mem_importedNames_mergeTexts hold hnew, mem_declaredNames_mergeTexts hold hnew]
  -- A name that comes with the imports of the new text is declared by neither.
  tauto

/-! ## A component that moves -/

/-- The module of the berries when the apples come first, and declare the shared component. -/
def berryAfterApple : String := (sharingModels appleResource berryResource).render "berry"

/-- The module of the berries when they come first, and declare the shared component. -/
def berryBeforeApple : String := (sharingModels berryResource appleResource).render "berry"

/-- This module is written by a pass. -/
theorem written_berryAfterApple : Written berryAfterApple := by
  obtain ⟨-, t, h⟩ := sharingRun_apple_berry
  exact .rendered ⟨_, _, _, t, _, "berry", h, by decide, rfl⟩

/-- This module is written by a pass, too. -/
theorem written_berryBeforeApple : Written berryBeforeApple := by
  obtain ⟨-, t, h⟩ := sharingRun_berry_apple
  exact .rendered ⟨_, _, _, t, _, "berry", h, by decide, rfl⟩

/-- The names that this module imports and declares. -/
theorem names_berryAfterApple :
    importedNames berryAfterApple.toList = ["IShared".toList] ∧
      declaredNames berryAfterApple.toList = ["IBerryResponse".toList] := by
  obtain ⟨-, t, h⟩ := sharingRun_apple_berry
  rw [berryAfterApple, importedNames_render h (by decide), declaredNames_render h (by decide)]
  exact ⟨by decide +kernel, rfl⟩

/-- The names that this module imports and declares, too. -/
theorem names_berryBeforeApple :
    importedNames berryBeforeApple.toList = [] ∧
      declaredNames berryBeforeApple.toList = ["IShared".toList, "IBerryResponse".toList] := by
  obtain ⟨-, t, h⟩ := sharingRun_berry_apple
  rw [berryBeforeApple, importedNames_render h (by decide), declaredNames_render h (by decide)]
  exact ⟨by decide +kernel, rfl⟩

/-- In this module no name is imported and declared. -/
theorem not_clashes_berryAfterApple (n : List Char) : ¬ Clashes berryAfterApple n := by
  obtain ⟨himported, hdeclared⟩ := names_berryAfterApple
  rintro ⟨h, h'⟩
  rw [himported, List.mem_singleton] at h
  rw [hdeclared, List.mem_singleton, h] at h'
  exact absurd h' (by decide)

/-- In this module no name is imported and declared, either. -/
theorem not_clashes_berryBeforeApple (n : List Char) : ¬ Clashes berryBeforeApple n := by
  rintro ⟨h, -⟩
  rw [names_berryBeforeApple.1] at h
  exact List.not_mem_nil h

/-- The component that moved into the module is imported there and declared. -/
theorem clashes_mergeTexts_iff_moved :
    Written berryAfterApple ∧ Written berryBeforeApple ∧
      (∀ n, ¬ Clashes berryAfterApple n) ∧ (∀ n, ¬ Clashes berryBeforeApple n) ∧
      Clashes (mergeTexts berryAfterApple berryBeforeApple) "IShared".toList := by
  refine ⟨written_berryAfterApple, written_berryBeforeApple, not_clashes_berryAfterApple,
    not_clashes_berryBeforeApple, ?_⟩
  rw [clashes_mergeTexts_iff written_berryAfterApple written_berryBeforeApple
    not_clashes_berryAfterApple not_clashes_berryBeforeApple, names_berryAfterApple.1,
    names_berryBeforeApple.2]
  exact ⟨List.mem_cons_self, List.mem_cons_self⟩

/-- Texts of modules without clashes, merged, need not be without clashes. -/
theorem exists_clash_of_moved_name :
    ¬ ∀ old new : String, Written old → Written new → (∀ n, ¬ Clashes old n) →
      (∀ n, ¬ Clashes new n) → ∀ n, ¬ Clashes (mergeTexts old new) n := by
  intro h
  have hclash : Clashes (mergeTexts berryAfterApple berryBeforeApple) "IShared".toList := by
    rw [Clashes, mem_importedNames_mergeTexts written_berryAfterApple written_berryBeforeApple,
      mem_declaredNames_mergeTexts written_berryAfterApple written_berryBeforeApple,
      names_berryAfterApple.1, names_berryBeforeApple.2]
    exact ⟨.inl List.mem_cons_self, .inr List.mem_cons_self⟩
  exact h _ _ written_berryAfterApple written_berryBeforeApple not_clashes_berryAfterApple
    not_clashes_berryBeforeApple _ hclash

end Generation

end ClientGen
