import Mathlib.Algebra.Order.BigOperators.Group.List
import Mathlib.Algebra.Order.Ring.Nat
import ClientGen.Proofs.Model.Conservation

/-!
# Merged texts grow

Whatever two texts are merged, the old one stays as it is or gets more to see.

* `ModuleText.isVisible`, `ModuleText.size`: the characters that are no blanks of a line and no line
  ends, and their number.
* `ModuleText.size_eq`: they are counted line by line.
* `ModuleText.merge_eq_or_size_lt`: a merged text is the old one, or larger.
-/

namespace ClientGen.ModuleText

open Text

variable {cs : List Char}

/-- A character that is no blank of a line and no line end. -/
def isVisible (c : Char) : Bool := !(isLineBlank c || c == '\n' || c == '\r')

/-- The number of visible characters. -/
def size (cs : List Char) : Nat := cs.countP isVisible

theorem size_pos_of_mem {c : Char} (hmem : c ∈ cs) (hc : isVisible c) : 0 < size cs :=
  List.countP_pos_iff.mpr ⟨c, hmem, hc⟩

/-- The size of a text is that of its lines that are not blank. -/
theorem size_eq (cs : List Char) : size cs = ((contentLines cs).map size).sum := by
  have happend : ∀ a b, (a ++ '\n' :: b).filter isVisible
      = a.filter isVisible ++ b.filter isVisible := by
    intro a b
    rw [List.filter_append, List.filter_cons_of_neg (by decide)]
  have hblank : ∀ u, isBlankLine u → u.filter isVisible = [] := by
    intro u hu
    refine List.filter_eq_nil_iff.mpr fun c hc => ?_
    have hline : isLineBlank c = true := List.all_eq_true.mp hu c hc
    simp [isVisible, hline]
  have hsize : ∀ cs, size cs = (cs.filter isVisible).length := fun cs =>
    List.countP_eq_length_filter
  rw [hsize, eq_flatMap_contentLines happend hblank cs, List.length_flatMap]
  exact congrArg (fun f => ((contentLines cs).map f).sum) (funext fun l => (hsize l).symm)

/-- A merged text is the old text, or it has more to see. -/
theorem merge_eq_or_size_lt (old new : List Char) :
    merge old new = old ∨ size old < size (merge old new) := by
  have h := extends_merge old new
  generalize (additions old new).imports = imports, (additions old new).blocks = added at h
  obtain ⟨rest, hold, hmerged⟩ := h.lines
  by_cases hnone : imports = [] ∧ added = []
  · refine .inl (h.unchanged ?_)
    rw [hmerged, hold, hnone.1, hnone.2]
    simp
  · -- One of the lines that were put in has something to see.
    obtain ⟨l, hl, hpos⟩ : ∃ l ∈ imports ++ added.flatMap contentLines, 0 < size l := by
      rcases not_and_or.mp hnone with himports | hadded
      · obtain ⟨l, hl⟩ := List.exists_mem_of_ne_nil _ himports
        exact ⟨l, List.mem_append_left _ hl,
          size_pos_of_mem (List.mem_of_head? (h.isImport l hl).head?) (by decide)⟩
      · obtain ⟨b, hb⟩ := List.exists_mem_of_ne_nil _ hadded
        obtain ⟨l, hl, hletter⟩ := exists_of_declaredNames_ne_nil (h.declares b hb)
        exact ⟨l, List.mem_append_right _ (List.mem_flatMap.mpr ⟨b, hb, hl⟩),
          size_pos_of_mem hletter (by decide)⟩
    have hle := List.le_sum_of_mem (List.mem_map_of_mem (f := size) hl)
    right
    rw [size_eq old, size_eq (merge old new), hold, hmerged]
    simp only [List.map_append, List.sum_append] at hle ⊢
    omega

end ClientGen.ModuleText
