import ClientGen.Proofs.Model.Blocks

/-!
# Paragraphs of a module text

A text that was edited by hand may have any number of blank lines anywhere. What counts is its lines
that are not blank, and how they are grouped.

* `ModuleText.contentLines`: the lines that are not blank.
* `ModuleText.paragraphs`: their maximal runs, and `ModuleText.paragraphs_eq`: the blocks of a text
  have one paragraph each, apart from those without any content.
* `ModuleText.eq_flatMap_contentLines`: what depends on the lines that are not blank alone.
* `ModuleText.leading`: the lines up to the first blank one, and
  `ModuleText.contentLines_firstBlock`: they are the content of the first block.
-/

namespace ClientGen.ModuleText

open Text

variable {cs l u : List Char} {ls : List (List Char)}

/-! ## Lines that are not blank -/

/-- Does the line hold only spaces and tabs? -/
def isBlankLine (l : List Char) : Bool := l.all isLineBlank

/-- The lines of a text that are not blank. -/
def contentLines (cs : List Char) : List (List Char) :=
  (splitOn '\n' cs).filter fun l => !isBlankLine l

@[simp]
theorem contentLines_nil : contentLines [] = [] := rfl

/-- The content of two texts with a line feed between them is that of the first, then that of the
second. -/
@[simp]
theorem contentLines_append (a b : List Char) :
    contentLines (a ++ '\n' :: b) = contentLines a ++ contentLines b := by
  rw [contentLines, splitOn_append_cons, List.filter_append, contentLines, contentLines]

/-- A line feed in front makes no difference to the content. -/
@[simp]
theorem contentLines_lineFeed (cs : List Char) : contentLines ('\n' :: cs) = contentLines cs :=
  contentLines_append [] cs

/-- A blank line has no line feed inside. -/
theorem lineFeed_not_mem_of_isBlankLine (h : isBlankLine u) : '\n' ∉ u := fun hmem =>
  absurd (List.all_eq_true.mp h _ hmem) (by decide)

/-- A blank line has no content. -/
theorem contentLines_of_isBlankLine (h : isBlankLine u) : contentLines u = [] := by
  rw [contentLines, splitOn_of_not_mem (lineFeed_not_mem_of_isBlankLine h)]
  simp [h]

/-- A line that is not blank is its own content. -/
theorem contentLines_of_isLine (h : IsLine l) : contentLines l = [l] := by
  obtain ⟨c, hc, hblank⟩ := h.visible
  have hcontent : isBlankLine l = false := List.all_eq_false.mpr ⟨c, hc, hblank⟩
  rw [contentLines, splitOn_of_not_mem h.oneLine]
  simp [hcontent]

/-- What does not change with a line feed at the end does not change with several. -/
theorem apply_dropEnd {β : Type} {f : List Char → β} (h : ∀ cs, f (cs ++ ['\n']) = f cs)
    (cs : List Char) : f (dropEnd (· = '\n') cs) = f cs := by
  induction cs using List.reverseRecOn with
  | nil => rfl
  | append_singleton cs c ih =>
    by_cases hc : c = '\n'
    · subst hc
      rw [dropEnd_append_of_pos (by decide), ih, h]
    · rw [dropEnd_of_getLast? (by simpa using hc)]

/-- Line feeds at the end of a text are not content. -/
theorem contentLines_dropEnd (cs : List Char) :
    contentLines (dropEnd (· = '\n') cs) = contentLines cs :=
  apply_dropEnd (fun cs => (contentLines_append cs []).trans (List.append_nil _)) cs

/-- The content of texts on lines of their own is that of each, in their order. -/
theorem contentLines_joined (ws : List (List Char)) :
    contentLines (joined ['\n'] ws) = ws.flatMap contentLines :=
  apply_joined rfl (fun a b => by simp) ws

/-- The content of texts with a blank line between them is that of each, in their order. -/
theorem contentLines_joined_blankLine (ws : List (List Char)) :
    contentLines (joined ['\n', '\n'] ws) = ws.flatMap contentLines :=
  apply_joined rfl (fun a b => by simp) ws

/-- What is gathered line by line, and is nothing on blank lines, is gathered from the content. -/
theorem eq_flatMap_contentLines {α : Type} {f : List Char → List α}
    (happend : ∀ a b, f (a ++ '\n' :: b) = f a ++ f b) (hblank : ∀ u, isBlankLine u → f u = [])
    (cs : List Char) : f cs = (contentLines cs).flatMap f := by
  have hfilter : ∀ ws : List (List Char),
      (ws.filter fun l => !isBlankLine l).flatMap f = ws.flatMap f := by
    intro ws
    induction ws with
    | nil => rfl
    | cons w ws ih =>
      by_cases hw : isBlankLine w
      · rw [List.filter_cons_of_neg (by simpa using hw), ih, List.flatMap_cons, hblank w hw,
          List.nil_append]
      · rw [List.filter_cons_of_pos (by simpa using hw), List.flatMap_cons, ih, List.flatMap_cons]
  have hsep : ∀ a b, f (a ++ ['\n'] ++ b) = f a ++ f b := fun a b => by
    rw [List.append_assoc, List.singleton_append, happend]
  rw [contentLines, hfilter, ← apply_joined (hblank [] rfl) hsep, joined_splitOn]

/-- A character that is no blank stands on a line that is not blank. -/
theorem exists_mem_contentLines {c : Char} (hmem : c ∈ cs) (hblank : ¬ isLineBlank c)
    (hfeed : c ≠ '\n') : ∃ l ∈ contentLines cs, c ∈ l := by
  rw [← joined_splitOn '\n' cs] at hmem
  rcases mem_joined hmem with heq | ⟨l, hl, hmem⟩
  · exact absurd (List.mem_singleton.mp heq) hfeed
  · have hcontent : isBlankLine l = false := List.all_eq_false.mpr ⟨c, hmem, hblank⟩
    exact ⟨l, List.mem_filter.mpr ⟨hl, by simp [hcontent]⟩, hmem⟩

/-! ## Runs of lines -/

/-- The maximal runs of lines that are not blank. -/
def runs (ls : List (List Char)) : List (List (List Char)) :=
  (ls.splitOnP isBlankLine).filter (· ≠ [])

/-- The maximal runs of lines of a text that are not blank. -/
def paragraphs (cs : List Char) : List (List (List Char)) := runs (splitOn '\n' cs)

/-- A blank line separates the runs in front of it from those behind it. -/
theorem runs_append_cons (hu : isBlankLine u) (ls ms : List (List Char)) :
    runs (ls ++ u :: ms) = runs ls ++ runs ms := by
  rw [runs, List.splitOnP_append_cons ls ms hu, List.filter_append, runs, runs]

theorem runs_nil : runs [] = [] := rfl

/-- The lines that are not blank as a single run; none if there is no such line. -/
def asRun (ls : List (List Char)) : List (List (List Char)) :=
  [ls.filter fun l => !isBlankLine l].filter (· ≠ [])

/-- Lines of which only the first one may be blank make one run. -/
theorem runs_of_tail (h : ∀ m ∈ ls.tail, isBlankLine m = false) : runs ls = asRun ls := by
  -- Lines without a blank one among them are one run.
  have hcontent : ∀ {ms : List (List Char)}, (∀ m ∈ ms, isBlankLine m = false) →
      runs ms = asRun ms := fun {ms} h => by
    have hms : ms.filter (fun l => !isBlankLine l) = ms :=
      List.filter_eq_self.mpr fun m hm => by rw [h m hm]; rfl
    rw [runs, asRun, List.splitOnP_eq_singleton h, hms]
  -- Only the first line can be blank, and it opens no run.
  rcases ls with _ | ⟨l, ms⟩
  · rfl
  · by_cases hl : isBlankLine l
    · have hskip := runs_append_cons hl [] ms
      rw [List.nil_append, runs_nil, List.nil_append] at hskip
      rw [List.tail_cons] at h
      have hfilter : (l :: ms).filter (fun l => !isBlankLine l)
          = ms.filter fun l => !isBlankLine l := List.filter_cons_of_neg (by simpa using hl)
      rw [hskip, hcontent h, asRun, asRun, hfilter]
    · exact hcontent (List.forall_mem_cons.mpr ⟨by simpa using hl, h⟩)

/-- Lines of which only the first and the last one may be blank make one run. -/
theorem runs_of_inner (h : ∀ m ∈ ls.tail.dropLast, isBlankLine m = false) :
    runs ls = asRun ls := by
  rcases List.eq_nil_or_concat ls with rfl | ⟨front, last, rfl⟩
  · rfl
  rw [List.concat_eq_append] at h ⊢
  rcases front with _ | ⟨l, front⟩
  · exact runs_of_tail (by simp)
  rw [List.cons_append, List.tail_cons, List.dropLast_concat] at h
  by_cases hlast : isBlankLine last
  · -- A blank line at the end cuts off nothing but itself.
    have hnone : [last].filter (fun l => !isBlankLine l) = [] :=
      List.filter_cons_of_neg (by simpa using hlast)
    have hfront : asRun (l :: front ++ [last]) = asRun (l :: front) := by
      rw [asRun, List.filter_append, hnone, List.append_nil, asRun]
    rw [hfront, runs_append_cons hlast, runs_nil, List.append_nil]
    exact runs_of_tail h
  · refine runs_of_tail (List.forall_mem_append.mpr ⟨h, ?_⟩)
    simpa using hlast

/-- Blank lines around a text do not belong to its paragraphs. -/
theorem paragraphs_dropLineFeeds (cs : List Char) :
    paragraphs (dropLineFeeds cs) = paragraphs cs := by
  have hempty : isBlankLine [] := rfl
  -- A line feed at either end is a blank line, which belongs to no paragraph.
  have hfront : ∀ cs : List Char, paragraphs (cs.dropWhile (· = '\n')) = paragraphs cs := by
    intro cs
    induction cs with
    | nil => rfl
    | cons c cs ih =>
      by_cases hc : c = '\n'
      · subst hc
        rw [List.dropWhile_cons_of_pos (by decide), ih, paragraphs, paragraphs,
          ← List.nil_append ('\n' :: cs), splitOn_append_cons]
        exact (runs_append_cons hempty [] _).symm
      · rw [List.dropWhile_cons_of_neg (by simpa using hc)]
  have hend : ∀ cs : List Char, paragraphs (cs ++ ['\n']) = paragraphs cs := by
    intro cs
    rw [paragraphs, splitOn_append_cons]
    exact (runs_append_cons hempty _ []).trans (List.append_nil _)
  rw [dropLineFeeds, apply_dropEnd hend, hfront]

/-! ## Blocks -/

/-- A blank line that is at an end is its blanks and a line feed. -/
theorem exists_of_blankLineLength? {n : Nat} (h : blankLineLength? cs = some n) :
    ∃ u rest, cs = u ++ '\n' :: rest ∧ isBlankLine u ∧ n = u.length + 1 := by
  unfold blankLineLength? at h
  split at h
  · rename_i rest hrest
    refine ⟨cs.takeWhile isLineBlank, rest, ?_, ?_, (Option.some.inj h).symm⟩
    · rw [← hrest, List.takeWhile_append_dropWhile]
    · exact List.all_eq_true.mpr fun c hc => List.mem_takeWhile_imp hc
  · cases h

/-- A blank line is recognised together with its line feed. -/
theorem blankLineLength?_append (h : isBlankLine u) (rest : List Char) :
    blankLineLength? (u ++ '\n' :: rest) = some (u.length + 1) := by
  have hu : ∀ c ∈ u, isLineBlank c := List.all_eq_true.mp h
  have hfeed : isLineBlank '\n' = false := by decide
  simp [blankLineLength?, List.dropWhile_append_of_pos hu, List.takeWhile_append_of_pos hu, hfeed]

/-- The first block of a text without blank lines is the text. -/
theorem firstBlock_of_snd (h : (firstBlock cs).2 = none) : (firstBlock cs).1 = cs := by
  induction cs with
  | nil => rfl
  | cons c cs ih =>
    rw [firstBlock] at h ⊢
    split at h
    · cases h
    · exact congrArg _ (ih h)

/-- Behind the first block stand a blank line and the rest of the text. -/
theorem exists_of_firstBlock {rest : List Char} (h : (firstBlock cs).2 = some rest) :
    ∃ u, isBlankLine u ∧ cs = (firstBlock cs).1 ++ '\n' :: (u ++ '\n' :: rest) := by
  induction cs with
  | nil => cases h
  | cons c cs ih =>
    rw [firstBlock] at h ⊢
    split at h
    · -- A block ends where a blank line can be matched, which needs two line feeds.
      rename_i n hn
      split at hn
      · rename_i hc
        obtain ⟨u, tail, rfl, hu, rfl⟩ := exists_of_blankLineLength? hn
        refine ⟨u, hu, ?_⟩
        rw [← Option.some.inj h, hc, List.append_cons, List.drop_append_of_le_length (by simp)]
        simp
      · cases hn
    · obtain ⟨u, hu, heq⟩ := ih h
      exact ⟨u, hu, congrArg _ heq⟩

/-- The first block starts the text. -/
theorem firstBlock_prefix (cs : List Char) : (firstBlock cs).1 <+: cs := by
  cases hrest : (firstBlock cs).2 with
  | none => exact (firstBlock_of_snd hrest).symm ▸ List.prefix_refl cs
  | some rest =>
    obtain ⟨u, -, heq⟩ := exists_of_firstBlock hrest
    exact ⟨_, heq.symm⟩

/-- Of the lines of a first block, only the first and the last one may be blank. -/
theorem inner_firstBlock (cs : List Char) :
    ∀ m ∈ (splitOn '\n' (firstBlock cs).1).tail.dropLast, isBlankLine m = false := by
  induction cs with
  | nil => simp [firstBlock, splitOn]
  | cons c cs ih =>
    rw [firstBlock]
    split
    · simp [splitOn]
    · rename_i hnone
      obtain ⟨tail, hcs⟩ := firstBlock_prefix cs
      obtain ⟨l, ms, hlines⟩ := List.exists_cons_of_ne_nil (splitOn_ne_nil '\n' (firstBlock cs).1)
      rw [hlines, List.tail_cons] at ih
      rw [splitOn, hlines]
      by_cases hc : c = '\n'
      · rw [if_pos hc] at hnone ⊢
        rcases ms with _ | ⟨m, ms⟩
        · simp
        · refine List.forall_mem_cons.mpr ⟨?_, ih⟩
          -- The line is followed by a line feed: were it blank, the text would be cut here.
          by_contra hblank
          have hjoined := joined_splitOn '\n' (firstBlock cs).1
          rw [hlines, joined_cons_cons, List.append_assoc] at hjoined
          rw [← hcs, ← hjoined, List.append_assoc, List.singleton_append, List.cons_append,
            blankLineLength?_append (by simpa using hblank)] at hnone
          cases hnone
      · rw [if_neg hc, consFirst, List.tail_cons]
        exact ih

/-- What is not blank in a text is in its first block or behind it. -/
theorem contentLines_eq (cs : List Char) : contentLines cs
    = contentLines (firstBlock cs).1 ++ contentLines ((firstBlock cs).2.getD []) := by
  cases hrest : (firstBlock cs).2 with
  | none =>
    rw [firstBlock_of_snd hrest, Option.getD_none, contentLines_nil, List.append_nil]
  | some rest =>
    obtain ⟨u, hu, heq⟩ := exists_of_firstBlock hrest
    conv_lhs => rw [heq]
    rw [contentLines_append, contentLines_append, contentLines_of_isBlankLine hu,
      List.nil_append, Option.getD_some]

/-- Reading blocks may start anywhere behind a number of characters. -/
theorem blocksFrom_eq (n : Nat) (cs : List Char) : blocksFrom n cs = blocks (cs.drop n) := by
  induction cs generalizing n with
  | nil => rw [List.drop_nil, blocks, blocksFrom, blocksFrom]
  | cons c cs ih =>
    cases n with
    | zero => rfl
    | succ n => exact ih n

/-- The blocks of a text are its first block and those of the rest. -/
theorem blocks_eq (cs : List Char) :
    blocks cs = (firstBlock cs).1 :: ((firstBlock cs).2.map blocks).getD [] := by
  induction cs with
  | nil => rfl
  | cons c cs ih =>
    rw [blocks, blocksFrom, firstBlock]
    split
    · rw [blocksFrom_eq]
      rfl
    · rw [blocksFrom_eq, List.drop_zero, ih]
      rfl

/-- The paragraphs of a text are what is not blank in its blocks. -/
theorem paragraphs_eq (cs : List Char) :
    paragraphs cs = ((blocks cs).map contentLines).filter (· ≠ []) := by
  have hfirst : paragraphs (firstBlock cs).1 = [contentLines (firstBlock cs).1].filter (· ≠ []) :=
    runs_of_inner (inner_firstBlock cs)
  rw [blocks_eq]
  cases hrest : (firstBlock cs).2 with
  | none =>
    rw [firstBlock_of_snd hrest] at hfirst ⊢
    exact hfirst
  | some rest =>
    obtain ⟨u, hu, heq⟩ := exists_of_firstBlock hrest
    -- No paragraph goes on over the blank line behind the first block.
    have hsplit : paragraphs cs = paragraphs (firstBlock cs).1 ++ paragraphs rest := by
      conv_lhs => rw [heq]
      rw [paragraphs, splitOn_append_cons, splitOn_append (lineFeed_not_mem_of_isBlankLine hu)]
      exact runs_append_cons hu _ _
    have hshorter : rest.length < cs.length := by
      have hlength := congrArg List.length heq
      simp only [List.length_append, List.length_cons] at hlength
      omega
    rw [hsplit, hfirst, paragraphs_eq rest, ← List.filter_append]
    rfl
termination_by cs.length

/-! ## Lines up to the first blank one -/

/-- The lines that are not blank up to the first blank one behind the first line. -/
def leading (ls : List (List Char)) : List (List Char) :=
  (ls.take 1).filter (fun l => !isBlankLine l) ++ ls.tail.takeWhile fun l => !isBlankLine l

/-- A blank line ends the lines that are taken as long as they are not blank. -/
theorem takeWhile_append_of_isBlankLine (hu : isBlankLine u) (ls ms : List (List Char)) :
    (ls ++ u :: ms).takeWhile (fun l => !isBlankLine l)
      = ls.takeWhile fun l => !isBlankLine l := by
  induction ls with
  | nil => simp [hu]
  | cons l ls ih =>
    rw [List.cons_append, List.takeWhile_cons, List.takeWhile_cons, ih]

/-- Lines behind a blank line are not among the leading ones. -/
theorem leading_append (hls : ls ≠ []) (hu : isBlankLine u) (ms : List (List Char)) :
    leading (ls ++ u :: ms) = leading ls := by
  obtain ⟨l, ls, rfl⟩ := List.exists_cons_of_ne_nil hls
  rw [leading, List.cons_append, List.tail_cons, takeWhile_append_of_isBlankLine hu]
  rfl

/-- If no line inside is blank, the leading lines are all that are not blank. -/
theorem leading_of_inner (h : ∀ m ∈ ls.tail.dropLast, isBlankLine m = false) :
    leading ls = ls.filter fun l => !isBlankLine l := by
  -- Only the last line of the tail can be blank, so stopping there loses nothing.
  have htail : ∀ ms : List (List Char), (∀ m ∈ ms.dropLast, isBlankLine m = false) →
      ms.takeWhile (fun l => !isBlankLine l) = ms.filter fun l => !isBlankLine l := by
    intro ms h
    induction ms with
    | nil => rfl
    | cons m ms ih =>
      rcases ms with _ | ⟨m', ms⟩
      · cases hm : isBlankLine m <;> simp [hm]
      · rw [List.dropLast_cons_cons, List.forall_mem_cons] at h
        rw [List.takeWhile_cons_of_pos (by simp [h.1]), List.filter_cons_of_pos (by simp [h.1]),
          ih h.2]
  rcases ls with _ | ⟨l, ms⟩
  · rfl
  · rw [leading, htail _ h, ← List.filter_append]
    rfl

/-- The first block has the leading lines of the text. -/
theorem contentLines_firstBlock (cs : List Char) :
    contentLines (firstBlock cs).1 = leading (splitOn '\n' cs) := by
  have hfirst := leading_of_inner (inner_firstBlock cs)
  cases hrest : (firstBlock cs).2 with
  | none =>
    rw [firstBlock_of_snd hrest] at hfirst ⊢
    exact hfirst.symm
  | some rest =>
    obtain ⟨u, hu, heq⟩ := exists_of_firstBlock hrest
    conv_rhs => rw [heq]
    rw [splitOn_append_cons, splitOn_append (lineFeed_not_mem_of_isBlankLine hu),
      leading_append (splitOn_ne_nil _ _) hu, hfirst]
    rfl

/-- What stands behind a blank line does not change the content of the first block. -/
theorem contentLines_firstBlock_append (cs rest : List Char) :
    contentLines (firstBlock (cs ++ '\n' :: '\n' :: rest)).1 = contentLines (firstBlock cs).1 := by
  have hempty : splitOn '\n' ('\n' :: rest) = [] :: splitOn '\n' rest :=
    splitOn_append_cons '\n' [] rest
  rw [contentLines_firstBlock, contentLines_firstBlock, splitOn_append_cons, hempty,
    leading_append (splitOn_ne_nil _ _) rfl]

/-- Line feeds at the end of a text do not change the content of its first block. -/
theorem contentLines_firstBlock_dropEnd (cs : List Char) :
    contentLines (firstBlock (dropEnd (· = '\n') cs)).1 = contentLines (firstBlock cs).1 := by
  refine apply_dropEnd (f := fun cs => contentLines (firstBlock cs).1) (fun cs => ?_) cs
  have hend : splitOn '\n' (cs ++ ['\n']) = splitOn '\n' cs ++ [[]] := splitOn_append_cons _ _ _
  rw [contentLines_firstBlock, contentLines_firstBlock, hend,
    leading_append (splitOn_ne_nil _ _) rfl]

end ClientGen.ModuleText
