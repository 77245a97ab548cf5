import ClientGen.File.Writer
import ClientGen.Proofs.Model.Growth
import ClientGen.Proofs.Model.Rereading

/-!
# What a file receives

A run may write several texts to one file: the text of a module, to which an existing file is added,
and texts that replace what is there. Files are read back before they are written, with their line
ends unified, and are left alone if they would not change.

* `WriteMode.receive`: what becomes of a file when a text is written to it.
* `receiveAll`: what becomes of it when texts are written one after another.
* `replaceAll_cases`: replacing texts forget what was there, or leave it alone.
* `Series.receiveAll_again`: writing the texts of a run a second time changes nothing.
-/

namespace ClientGen

open ModuleText

variable {m r text stored x z : String} {rs : List String}

/-- A text that was read back is read back as it is. -/
@[simp]
theorem reread_reread (text : String) : reread (reread text) = reread text := by
  simp [reread]

/-- The text of a file after a text is written to it. The file may be missing. -/
def WriteMode.receive (mode : WriteMode) (text : String) : Option String → String
  | none => text
  | some stored =>
    let old := reread stored
    let combined := mode.combine old text
    if combined = old then stored else combined

@[simp]
theorem receive_none (mode : WriteMode) (text : String) : mode.receive text none = text := rfl

/-- The text of a file after texts are written to it, one after another. -/
def receiveAll (writes : List (WriteMode × String)) (stored : Option String) : Option String :=
  writes.foldl (fun stored write => some (write.1.receive write.2 stored)) stored

@[simp]
theorem receiveAll_nil (stored : Option String) : receiveAll [] stored = stored := rfl

@[simp]
theorem receiveAll_cons (write : WriteMode × String) (writes : List (WriteMode × String))
    (stored : Option String) : receiveAll (write :: writes) stored
      = receiveAll writes (some (write.1.receive write.2 stored)) := rfl

/-- Receiving two runs of texts is receiving the first and then the second. -/
theorem receiveAll_append (a b : List (WriteMode × String)) (stored : Option String) :
    receiveAll (a ++ b) stored = receiveAll b (receiveAll a stored) := List.foldl_append

/-! ## Texts that replace -/

/-- A text that replaces is stored, unless the file reads like it already. -/
theorem receive_replace (text stored : String) :
    WriteMode.replace.receive text (some stored)
      = if text = reread stored then stored else text := rfl

/-- The text of a file after some texts replaced it, one after another. -/
def replaceAll (rs : List String) (stored : String) : String :=
  rs.foldl (fun stored r => WriteMode.replace.receive r (some stored)) stored

@[simp]
theorem replaceAll_nil (stored : String) : replaceAll [] stored = stored := rfl

theorem replaceAll_cons (r : String) (rs : List String) (stored : String) :
    replaceAll (r :: rs) stored = replaceAll rs (if r = reread stored then stored else r) := rfl

/-- Receiving texts that replace what is there is replacing it by one after another. -/
theorem receiveAll_replace (rs : List String) (stored : String) :
    receiveAll (rs.map fun r => (.replace, r)) (some stored) = some (replaceAll rs stored) := by
  induction rs generalizing stored with
  | nil => rfl
  | cons r rs ih => exact ih _

/-- A file that reads like all texts is left alone. -/
theorem replaceAll_of_forall (h : ∀ r ∈ rs, r = reread stored) : replaceAll rs stored = stored := by
  induction rs with
  | nil => rfl
  | cons r rs ih =>
    rw [List.forall_mem_cons] at h
    rw [replaceAll_cons, if_pos h.1, ih h.2]

/-- Two files are the same after replacing, or one of them reads like all texts. -/
theorem replaceAll_cases (rs : List String) (x z : String) :
    replaceAll rs x = replaceAll rs z ∨ (∀ r ∈ rs, r = reread x) ∨ ∀ r ∈ rs, r = reread z := by
  induction rs generalizing x z with
  | nil => exact .inr (.inl (by simp))
  | cons r rs ih =>
    simp only [replaceAll_cons, List.forall_mem_cons]
    by_cases hx : r = reread x <;> by_cases hz : r = reread z
    · rw [if_pos hx, if_pos hz]
      exact (ih x z).imp_right (Or.imp (⟨hx, ·⟩) (⟨hz, ·⟩))
    · -- The second file is given the text that the first one reads like.
      rw [if_pos hx, if_neg hz]
      have hsame : reread r = reread x := by rw [hx, reread_reread]
      rcases ih x r with h | h | h
      · exact .inl h
      · exact .inr (.inl ⟨hx, h⟩)
      · exact .inr (.inl ⟨hx, hsame ▸ h⟩)
    · rw [if_neg hx, if_pos hz]
      have hsame : reread r = reread z := by rw [hz, reread_reread]
      rcases ih r z with h | h | h
      · exact .inl h
      · exact .inr (.inr ⟨hz, hsame ▸ h⟩)
      · exact .inr (.inr ⟨hz, h⟩)
    · rw [if_neg hx, if_neg hz]
      exact .inl rfl

/-- After replacing, a file reads like one of the texts. -/
theorem exists_reread_replaceAll (hne : rs ≠ []) :
    ∃ r ∈ rs, ∀ stored, reread (replaceAll rs stored) = reread r := by
  obtain ⟨front, r, rfl⟩ := (List.eq_nil_or_concat rs).resolve_left hne
  refine ⟨r, by simp, fun stored => ?_⟩
  rw [List.concat_eq_append, replaceAll, List.foldl_concat, ← replaceAll, receive_replace]
  split
  · rename_i hr
    rw [hr, reread_reread]
  · rfl

/-- Replacing by the same texts again changes nothing. -/
theorem replaceAll_replaceAll (rs : List String) (stored : String) :
    replaceAll rs (replaceAll rs stored) = replaceAll rs stored := by
  rcases replaceAll_cases rs (replaceAll rs stored) stored with h | h | h
  · exact h
  · exact replaceAll_of_forall h
  · rw [replaceAll_of_forall h, replaceAll_of_forall h]

/-! ## Texts of modules -/

/-- A file with the text of a module is left alone when the text is written again. -/
theorem receive_merge_self (h : Generation.Rendered m) : WriteMode.merge.receive m (some m) = m :=
  if_pos h.merge_reread

/-- A file is left alone when a text of a module is written to it, or then reads otherwise. -/
theorem receive_merge_cases (m stored : String) : WriteMode.merge.receive m (some stored) = stored ∨
    reread (WriteMode.merge.receive m (some stored)) ≠ reread stored := by
  have hsize : ∀ text : String, size (reread text).toList = size text.toList := fun text => by
    rw [toList_reread]
    exact Text.countP_unifyNewlines (by decide) (by decide) _
  by_cases h : mergeTexts (reread stored) m = reread stored
  · exact .inl (if_pos h)
  · -- What is new can still be seen when it is read back.
    have hreceive : WriteMode.merge.receive m (some stored) = mergeTexts (reread stored) m :=
      if_neg h
    have hgrown := (merge_eq_or_size_lt (reread stored).toList m.toList).resolve_left fun heq =>
      h (String.toList_inj.mp (by rw [toList_mergeTexts, heq]))
    refine .inr fun heq => absurd hgrown ?_
    rw [← toList_mergeTexts, ← hreceive, ← hsize (WriteMode.receive _ _ _), heq]
    exact lt_irrefl _

/-- Writing the text of a module and then texts that replace it a second time changes nothing. -/
theorem replaceAll_receive_merge (h : Generation.Rendered m) (rs : List String) :
    replaceAll rs (WriteMode.merge.receive m (some (replaceAll rs m))) = replaceAll rs m := by
  rcases List.eq_nil_or_concat rs with rfl | ⟨front, last, hrs⟩
  · rw [replaceAll_nil, replaceAll_nil, receive_merge_self h]
  have hne : rs ≠ [] := by simp [hrs]
  set once := replaceAll rs m with honce
  rcases replaceAll_cases rs (WriteMode.merge.receive m (some once)) m with hsame | hall | hall
  · exact hsame
  · rcases receive_merge_cases m once with hleft | hother
    · rw [hleft, honce, replaceAll_replaceAll]
    · -- All texts are what the file reads like after the merge. But then it read like that before.
      obtain ⟨r, hr, hread⟩ := exists_reread_replaceAll hne
      have hbefore := hread m
      rw [hall r hr, reread_reread] at hbefore
      exact absurd hbefore.symm hother
  · rw [honce, replaceAll_of_forall hall, receive_merge_self h, replaceAll_of_forall hall]

/-! ## The texts of a run -/

/-- The texts that a run writes to one file: that of a module, if any, and then texts that
replace. -/
inductive Series : List (WriteMode × String) → Prop where
  /-- Only texts that replace. -/
  | replacing (rs : List String) : Series (rs.map fun r => (.replace, r))
  /-- The text of a module, and texts that replace it. -/
  | merging {m : String} (h : Generation.Rendered m) (rs : List String) :
    Series ((.merge, m) :: rs.map fun r => (.replace, r))

/-- Writing the texts of a run to a missing file, and then once more, is writing them once. -/
theorem Series.receiveAll_again {writes : List (WriteMode × String)} (h : Series writes) :
    receiveAll writes (receiveAll writes none) = receiveAll writes none := by
  cases h with
  | replacing rs =>
    rcases rs with _ | ⟨r, rs⟩
    · rfl
    · -- The first text is what the missing file is given, and what it reads like from then on.
      have hfirst : receiveAll ((r :: rs).map fun r => (.replace, r)) none
          = some (replaceAll (r :: rs) r) := by
        rw [List.map_cons, receiveAll_cons, receive_none, receiveAll_replace, replaceAll_cons,
          ite_self]
      rw [hfirst, receiveAll_replace, replaceAll_replaceAll]
  | @merging m h rs =>
    have honce : receiveAll ((.merge, m) :: rs.map fun r => (.replace, r)) none
        = some (replaceAll rs m) := by
      rw [receiveAll_cons, receive_none, receiveAll_replace]
    rw [honce, receiveAll_cons, receiveAll_replace, replaceAll_receive_merge h]

end ClientGen
