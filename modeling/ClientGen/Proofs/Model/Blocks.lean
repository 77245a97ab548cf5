import ClientGen.Model.Merge
import ClientGen.Proofs.Text.Lines

/-!
# Blocks of a module text

A module text is cut at its blank lines. Blocks without blank lines inside that are put together
with one blank line between neighbours are found again.

* `ModuleText.Solid`: a block without blank lines, and `ModuleText.solid_joined`: some lines that
  are not blank.
* `ModuleText.blocks_joined`, `ModuleText.firstBlock_append`: the blocks of a text.
* `ModuleText.Trimmed`: a text without line feeds around it.
* `ModuleText.isImportBlock_joined`, `ModuleText.not_isImportBlock_cons`: which blocks are imports.
-/

namespace ClientGen.ModuleText

open Text

variable {b cs rest : List Char}

/-- The text goes on with a line that is not blank. -/
def StartsLine (cs : List Char) : Prop :=
  ∃ c rest, cs.dropWhile isLineBlank = c :: rest ∧ c ≠ '\n'

/-- Every line of the text but its first one is not blank. -/
def Solid : List Char → Prop
  | [] => True
  | c :: cs => (c = '\n' → StartsLine cs) ∧ Solid cs

/-- A text that goes on with a line that is not blank still does with more behind it. -/
theorem StartsLine.append (h : StartsLine cs) (rest : List Char) : StartsLine (cs ++ rest) := by
  obtain ⟨c, tail, hdrop, hc⟩ := h
  refine ⟨c, tail ++ rest, ?_, hc⟩
  have hne : cs.dropWhile isLineBlank ≠ [] := by simp [hdrop]
  rw [List.dropWhile_append, hdrop]
  simp

/-- A line with a character that is no blank starts a line. -/
theorem startsLine_of_mem {c : Char} (hmem : c ∈ cs) (hc : ¬ isLineBlank c) (hfeed : '\n' ∉ cs) :
    StartsLine cs := by
  have hne : cs.dropWhile isLineBlank ≠ [] := fun h =>
    hc (List.dropWhile_eq_nil_iff.mp h c hmem)
  obtain ⟨d, tail, hdrop⟩ := List.exists_cons_of_ne_nil hne
  refine ⟨d, tail, hdrop, ?_⟩
  rintro rfl
  exact hfeed ((List.dropWhile_sublist _).subset (hdrop ▸ List.mem_cons_self))

/-- No blank line stands where a line starts. -/
theorem blankLineLength?_of_startsLine (h : StartsLine cs) : blankLineLength? cs = none := by
  obtain ⟨c, tail, hdrop, hc⟩ := h
  unfold blankLineLength?
  rw [hdrop]
  split
  · rename_i h
    exact absurd (List.cons.inj h).1 hc
  · rfl

/-- A text without a line feed is solid. -/
theorem solid_of_not_mem (h : '\n' ∉ b) : Solid b := by
  induction b with
  | nil => trivial
  | cons c b ih =>
    rw [List.mem_cons, not_or] at h
    exact ⟨fun hc => absurd hc.symm h.1, ih h.2⟩

/-- A line in front of a solid text that starts a line. -/
theorem solid_append (hb : '\n' ∉ b) (hline : StartsLine cs) (hcs : Solid cs) :
    Solid (b ++ '\n' :: cs) := by
  induction b with
  | nil => exact ⟨fun _ => hline, hcs⟩
  | cons c b ih =>
    rw [List.mem_cons, not_or] at hb
    exact ⟨fun hc => absurd hc.symm hb.1, ih hb.2⟩

/-- A line that is not blank. -/
structure IsLine (l : List Char) : Prop where
  /-- It is one line. -/
  oneLine : '\n' ∉ l
  /-- It has a character that is no blank. -/
  visible : ∃ c ∈ l, ¬ isLineBlank c

/-- A line that is not blank goes on with itself. -/
theorem IsLine.startsLine (h : IsLine b) : StartsLine b := by
  obtain ⟨c, hmem, hc⟩ := h.visible
  exact startsLine_of_mem hmem hc h.oneLine

/-- Lines that are not blank make a solid block. -/
theorem solid_joined {ls : List (List Char)} (h : ∀ l ∈ ls, IsLine l) :
    Solid (joined ['\n'] ls) := by
  induction ls with
  | nil => trivial
  | cons l ls ih =>
    have hl := h l List.mem_cons_self
    have hls := ih fun m hm => h m (List.mem_cons_of_mem _ hm)
    rcases ls with _ | ⟨m, ls⟩
    · exact solid_of_not_mem hl.oneLine
    · rw [joined_cons_cons, List.append_assoc, List.singleton_append]
      -- What follows the line feed starts a line, so the pair is no blank line.
      refine solid_append hl.oneLine ?_ hls
      have hm := (h m (by simp)).startsLine
      rcases ls with _ | ⟨m', ls⟩
      · exact hm
      · rw [joined_cons_cons, List.append_assoc]
        exact hm.append _

/-- No blank line stands behind a character of a solid text. -/
theorem Solid.no_blankLine {c : Char} (h : Solid (c :: b)) (rest : List Char) :
    (if c = '\n' then blankLineLength? (b ++ rest) else none) = none := by
  split
  · rename_i hc
    exact blankLineLength?_of_startsLine ((h.1 hc).append rest)
  · rfl

/-- A solid text is one block up to the next blank line. -/
theorem blocks_append (h : Solid b) (rest : List Char) :
    blocks (b ++ '\n' :: '\n' :: rest) = b :: blocks rest := by
  unfold blocks
  induction b with
  | nil => rfl
  | cons c b ih =>
    rw [List.cons_append, blocksFrom, h.no_blankLine]
    simp only [ih h.2]
    rfl

/-- A solid text is one block. -/
theorem blocks_self (h : Solid b) : blocks b = [b] := by
  unfold blocks
  induction b with
  | nil => rfl
  | cons c b ih =>
    have hnone := h.no_blankLine []
    rw [List.append_nil] at hnone
    rw [blocksFrom, hnone]
    simp only [ih h.2]
    rfl

/-- The blocks of a text that is put together from solid blocks. -/
theorem blocks_joined {bs : List (List Char)} (hne : bs ≠ []) (h : ∀ b ∈ bs, Solid b) :
    blocks (joined ['\n', '\n'] bs) = bs := by
  induction bs with
  | nil => exact absurd rfl hne
  | cons b bs ih =>
    have hb := h b List.mem_cons_self
    rcases bs with _ | ⟨b', bs⟩
    · exact blocks_self hb
    · have hrest := ih (List.cons_ne_nil _ _) fun b hb => h b (List.mem_cons_of_mem _ hb)
      rw [joined_cons_cons, List.append_assoc, List.cons_append, List.singleton_append,
        blocks_append hb, hrest]

/-- The first block of a text ends at its first blank line. -/
theorem firstBlock_append (h : Solid b) (rest : List Char) :
    firstBlock (b ++ '\n' :: '\n' :: rest) = (b, some rest) := by
  induction b with
  | nil => rfl
  | cons c b ih => rw [List.cons_append, firstBlock, h.no_blankLine, ih h.2]

/-- The first block starts as the text does. -/
theorem exists_firstBlock_cons {c : Char} (hc : c ≠ '\n') (cs : List Char) :
    ∃ first, (firstBlock (c :: cs)).1 = c :: first := by
  rw [firstBlock, if_neg hc]
  exact ⟨_, rfl⟩

/-! ## Line feeds around texts -/

/-- A text that is not empty and has a line feed at neither end. -/
structure Trimmed (cs : List Char) : Prop where
  /-- It is not empty. -/
  ne_nil : cs ≠ []
  /-- It starts with another character. -/
  head_ne : cs.head? ≠ some '\n'
  /-- It ends with another character. -/
  last_ne : cs.getLast? ≠ some '\n'

/-- A line that is not blank has no line feed at either end. -/
theorem IsLine.trimmed (h : IsLine b) : Trimmed b where
  ne_nil := by
    rintro rfl
    obtain ⟨c, hc, -⟩ := h.visible
    exact List.not_mem_nil hc
  head_ne heq := h.oneLine (List.mem_of_head? heq)
  last_ne heq := h.oneLine (List.mem_of_getLast? heq)

/-- Whatever stands between trimmed texts, what they make is trimmed. -/
theorem trimmed_joined {sep : List Char} {ws : List (List Char)} (hne : ws ≠ [])
    (h : ∀ w ∈ ws, Trimmed w) : Trimmed (joined sep ws) := by
  induction ws with
  | nil => exact absurd rfl hne
  | cons w ws ih =>
    have hw := h w List.mem_cons_self
    rcases ws with _ | ⟨w', ws⟩
    · exact hw
    · have hrest := ih (List.cons_ne_nil _ _) fun v hv => h v (List.mem_cons_of_mem _ hv)
      rw [joined_cons_cons, List.append_assoc]
      refine ⟨by simp [hw.ne_nil], ?_, ?_⟩
      · rw [List.head?_append_of_ne_nil w hw.ne_nil]
        exact hw.head_ne
      · rw [← List.append_assoc, List.getLast?_append_of_ne_nil _ hrest.ne_nil]
        exact hrest.last_ne

/-- A trimmed text has no line feeds to drop at its end. -/
theorem Trimmed.dropEnd_self (h : Trimmed cs) : dropEnd (· = '\n') cs = cs := by
  refine dropEnd_of_getLast? fun c hc => ?_
  rw [decide_eq_true_eq]
  rintro rfl
  exact h.last_ne hc

/-- A line feed behind a trimmed text is the only one to drop. -/
theorem Trimmed.dropEnd_lineFeed (h : Trimmed cs) : dropEnd (· = '\n') (cs ++ ['\n']) = cs := by
  rw [dropEnd_append_of_pos (by decide), h.dropEnd_self]

/-- A line feed behind a trimmed text is the only one to drop at either end. -/
theorem Trimmed.dropLineFeeds (h : Trimmed cs) : dropLineFeeds (cs ++ ['\n']) = cs := by
  obtain ⟨c, tail, rfl⟩ := List.exists_cons_of_ne_nil h.ne_nil
  have hc : c ≠ '\n' := by
    rintro rfl
    exact h.head_ne rfl
  have hdrop : ((c :: tail) ++ ['\n']).dropWhile (· = '\n') = (c :: tail) ++ ['\n'] :=
    List.dropWhile_cons_of_neg (by simpa using hc)
  rw [ModuleText.dropLineFeeds, hdrop, h.dropEnd_lineFeed]

/-! ## Blocks of imports -/

/-- A block that starts with a character other than a blank or an `i` does not consist of imports:
its first line is none. -/
theorem not_isImportBlock_cons {c : Char} (hblank : isBlank c = false) (hc : c ≠ 'i')
    (cs : List Char) : isImportBlock (c :: cs) = false := by
  have hend : isLineEnd c = false := by
    by_contra h
    rw [Bool.not_eq_false] at h
    simp only [isLineEnd, Bool.or_eq_true, Bool.and_eq_true, decide_eq_true_eq, beq_iff_eq] at h
    simp only [isBlank, Bool.or_eq_false_iff, Bool.and_eq_false_iff, decide_eq_false_iff_not,
      beq_eq_false_iff_ne] at hblank
    omega
  -- The first line is neither blank nor an import, and one such line is enough.
  obtain ⟨ws, hlines⟩ := exists_lines_cons hend cs
  generalize (cs.takeWhile fun d => !isLineEnd d) = w at hlines
  have hvisible : (trim (c :: w)).isEmpty = false := by
    have hne := trim_cons_ne_nil (c := c) (by simp [hblank]) w
    simpa using hne
  have hnone : typeImport? (c :: w) = none := by
    unfold typeImport?
    simp [skipWord?, Ne.symm hc]
  simp [isImportBlock, hlines, hvisible, hnone]

/-- Import lines make a block of imports. -/
theorem isImportBlock_joined {ls : List (List Char)} (hne : ls ≠ [])
    (h : ∀ l ∈ ls, (∀ c ∈ l, isLineEnd c = false) ∧ trim l ≠ [] ∧ (typeImport? l).isSome) :
    isImportBlock (joined ['\n'] ls) = true := by
  have hlines : lines (joined ['\n'] ls) = ls := by
    refine lines_joined fun l hl => ⟨?_, (h l hl).1⟩
    rintro rfl
    exact (h [] hl).2.1 rfl
  have hfilter : ls.filter (fun line => !(trim line).isEmpty) = ls := by
    refine List.filter_eq_self.mpr fun l hl => ?_
    simpa using (h l hl).2.1
  simp only [isImportBlock, hlines, hfilter, Bool.and_eq_true, List.all_eq_true]
  exact ⟨by simpa using hne, fun l hl => (h l hl).2.2⟩

end ClientGen.ModuleText
