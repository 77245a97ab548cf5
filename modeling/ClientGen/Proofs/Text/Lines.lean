import Mathlib.Data.List.DropRight
import ClientGen.Text.Lines
import ClientGen.Text.Match

/-!
# Reading texts line by line

What is found in a text that is put together from lines, when what is looked for in a line does not
depend on the lines behind it.

* `StaysIn`, `found`: a recogniser that looks at one line, and what it finds there.
* `lineMatches_joined`, `lineMatches_paragraphs`: the matches in lines, one after another.
* `lines_joined`, `exists_lines_cons`: lines in the sense of Unicode.
* `splitOn_append`, `trim_append`: cutting a line into fields.
-/

namespace ClientGen.Text

variable {α : Type} {recognise : Recogniser α} {l m rest cs : List Char} {c : Char}

/-! ## Joined words -/

@[simp]
theorem joined_nil (sep : List Char) : joined sep [] = [] := rfl

/-- One text is not joined to anything. -/
@[simp]
theorem joined_singleton (sep w : List Char) : joined sep [w] = w := rfl

@[simp]
theorem joined_cons_cons (sep w w' : List Char) (ws : List (List Char)) :
    joined sep (w :: w' :: ws) = w ++ sep ++ joined sep (w' :: ws) := rfl

/-- Two non-empty lists of texts are joined by joining each of them and putting the separator
between. -/
theorem joined_append (sep : List Char) {ws ws' : List (List Char)} (h : ws ≠ [])
    (h' : ws' ≠ []) : joined sep (ws ++ ws') = joined sep ws ++ sep ++ joined sep ws' := by
  induction ws with
  | nil => exact absurd rfl h
  | cons w ws ih =>
    obtain ⟨w', ws', rfl⟩ := List.exists_cons_of_ne_nil h'
    rcases ws with _ | ⟨v, ws⟩
    · rfl
    · rw [List.cons_append, List.cons_append, joined_cons_cons, joined_cons_cons,
        ← List.cons_append, ih (List.cons_ne_nil _ _)]
      simp

/-- A text that others follow is joined to them with the separator between. -/
theorem joined_cons (sep w : List Char) {ws : List (List Char)} (h : ws ≠ []) :
    joined sep (w :: ws) = w ++ sep ++ joined sep ws :=
  joined_append sep (List.cons_ne_nil w []) h

/-- What is gathered from the texts on both sides of a separator is gathered from joined words one
after another. -/
theorem apply_joined {sep : List Char} {f : List Char → List α} (hnil : f [] = [])
    (hsep : ∀ a b, f (a ++ sep ++ b) = f a ++ f b) (ws : List (List Char)) :
    f (joined sep ws) = ws.flatMap f := by
  induction ws with
  | nil => exact hnil
  | cons w ws ih =>
    rcases ws with _ | ⟨w', ws⟩
    · exact (List.append_nil _).symm
    · rw [joined_cons_cons, hsep, ih]
      rfl

/-- The characters of joined words are those of the words and of what separates them. -/
theorem mem_joined {sep : List Char} {ws : List (List Char)} (h : c ∈ joined sep ws) :
    c ∈ sep ∨ ∃ w ∈ ws, c ∈ w := by
  induction ws with
  | nil => exact absurd h List.not_mem_nil
  | cons w ws ih =>
    rcases ws with _ | ⟨v, ws⟩
    · exact .inr ⟨w, List.mem_cons_self, h⟩
    · rw [joined_cons_cons, List.mem_append, List.mem_append] at h
      rcases h with (h | h) | h
      · exact .inr ⟨w, List.mem_cons_self, h⟩
      · exact .inl h
      · rcases ih h with h | ⟨u, hu, h⟩
        · exact .inl h
        · exact .inr ⟨u, List.mem_cons_of_mem _ hu, h⟩

/-- Every character of a text is one of the joined texts. -/
theorem subset_joined (sep : List Char) {w : List Char} {ws : List (List Char)} (hw : w ∈ ws) :
    w ⊆ joined sep ws := by
  induction ws with
  | nil => exact absurd hw List.not_mem_nil
  | cons v ws ih =>
    rcases ws with _ | ⟨v', ws⟩
    · rw [List.mem_singleton.mp hw]
      exact List.Subset.refl v
    · rw [joined_cons_cons]
      rcases List.mem_cons.mp hw with rfl | hw
      · exact fun c hc => List.mem_append_left _ (List.mem_append_left _ hc)
      · exact fun c hc => List.mem_append_right _ (ih hw hc)

/-- The characters of joined strings are those of the strings, joined by those of the separator. -/
theorem toList_intercalate (sep : String) (ws : List String) :
    (sep.intercalate ws).toList = joined sep.toList (ws.map String.toList) := by
  rw [String.toList_intercalate]
  induction ws with
  | nil => rfl
  | cons w ws ih =>
    rcases ws with _ | ⟨v, ws⟩
    · exact List.intercalate_singleton
    · rw [List.map_cons, List.map_cons, List.intercalate_cons_cons, joined_cons_cons,
        ← List.map_cons, ih]

/-- Joined lines with a line feed at the end are lines with a line feed behind each. -/
theorem joined_lineFeed {ls : List (List Char)} (hne : ls ≠ []) :
    joined ['\n'] ls ++ ['\n'] = ls.flatMap (· ++ ['\n']) := by
  induction ls with
  | nil => exact absurd rfl hne
  | cons l ls ih =>
    rcases ls with _ | ⟨m, ls⟩
    · exact (List.flatMap_singleton ..).symm
    · rw [joined_cons_cons, List.append_assoc, ih (List.cons_ne_nil _ _)]
      rfl

/-- Texts that end in a line feed, joined by line feeds, have blank lines between them. -/
theorem joined_blankLine {bs : List (List Char)} (hne : bs ≠ []) :
    joined ['\n'] (bs.map (· ++ ['\n'])) = joined ['\n', '\n'] bs ++ ['\n'] := by
  induction bs with
  | nil => exact absurd rfl hne
  | cons b bs ih =>
    rcases bs with _ | ⟨b', bs⟩
    · rfl
    · have hrest := ih (List.cons_ne_nil _ _)
      rw [List.map_cons] at hrest
      rw [List.map_cons, List.map_cons, joined_cons_cons, hrest, joined_cons_cons]
      simp

/-! ## Steps of recognisers -/

/-- A word that stands in front is skipped. -/
@[simp]
theorem skipWord?_append (w rest : List Char) : skipWord? w (w ++ rest) = some rest := by
  induction w with
  | nil => rfl
  | cons c w ih => rw [List.cons_append, skipWord?, if_pos rfl, ih]

/-- What is left behind a word. -/
theorem eq_append_of_skipWord? {w t : List Char} (h : skipWord? w cs = some t) : cs = w ++ t := by
  induction w generalizing cs with
  | nil => exact Option.some.inj h
  | cons d w ih =>
    rcases cs with _ | ⟨c, cs⟩
    · cases h
    · rw [skipWord?] at h
      split at h
      · rename_i hd
        rw [hd, ih h, List.cons_append]
      · cases h

/-- What is left behind some blanks. -/
theorem exists_of_skipSome? {p : Char → Bool} {t : List Char} (h : skipSome? p cs = some t) :
    ∃ u, cs = u ++ t ∧ ∀ c ∈ u, p c := by
  rcases cs with _ | ⟨c, cs⟩
  · cases h
  · rw [skipSome?] at h
    split at h
    · rename_i hc
      obtain rfl := Option.some.inj h
      exact ⟨c :: cs.takeWhile p, by rw [List.cons_append, List.takeWhile_append_dropWhile],
        List.forall_mem_cons.mpr ⟨hc, fun d hd => List.mem_takeWhile_imp hd⟩⟩
    · cases h

/-- The text up to the first occurrence of a character. -/
theorem takeWhile_ne_append (h : c ∉ l) (rest : List Char) :
    (l ++ c :: rest).takeWhile (· ≠ c) = l := by
  have hl : ∀ d ∈ l, decide (d ≠ c) = true := fun d hd =>
    decide_eq_true (ne_of_mem_of_not_mem hd h)
  rw [List.takeWhile_append_of_pos hl]
  simp

/-- The text from the first occurrence of a character on. -/
theorem dropWhile_ne_append (h : c ∉ l) (rest : List Char) :
    (l ++ c :: rest).dropWhile (· ≠ c) = c :: rest := by
  have hl : ∀ d ∈ l, decide (d ≠ c) = true := fun d hd =>
    decide_eq_true (ne_of_mem_of_not_mem hd h)
  rw [List.dropWhile_append_of_pos hl]
  simp

/-- A text is cut in one way at the first occurrence of a character. -/
theorem append_cons_inj {a b : List Char} (hl : c ∉ l) (hm : c ∉ m)
    (h : l ++ c :: a = m ++ c :: b) : l = m ∧ a = b := by
  have hfront := congrArg (List.takeWhile (· ≠ c)) h
  have hback := congrArg (List.dropWhile (· ≠ c)) h
  rw [takeWhile_ne_append hl, takeWhile_ne_append hm] at hfront
  rw [dropWhile_ne_append hl, dropWhile_ne_append hm] at hback
  exact ⟨hfront, (List.cons.inj hback).2⟩

/-! ## Matches -/

/-- The text is at its end or at the end of a line. -/
def AtLineEnd (cs : List Char) : Prop := ∀ c ∈ cs.head?, c = '\n'

/-- The end of a text is the end of a line. -/
theorem atLineEnd_nil : AtLineEnd [] := by simp [AtLineEnd]

/-- A line feed is the end of a line. -/
theorem atLineEnd_cons (cs : List Char) : AtLineEnd ('\n' :: cs) := by simp [AtLineEnd]

/-- What the recogniser does at the start of a line does not depend on the lines behind it. -/
def StaysIn (recognise : Recogniser α) (l : List Char) : Prop :=
  ∀ rest, AtLineEnd rest →
    recognise (l ++ rest) = (recognise l).map fun found => (found.1, found.2 ++ rest)

/-- What the recogniser finds at the start of a line. -/
def found (recognise : Recogniser α) (l : List Char) : List α :=
  ((recognise l).map Prod.fst).toList

/-- Inside a line nothing is found. The number counts the characters of the match found last. -/
theorem lineMatchesFrom_inside {k : Nat} (hm : '\n' ∉ m) (hk : k ≤ m.length) :
    lineMatchesFrom recognise k false (m ++ '\n' :: rest) = lineMatches recognise rest := by
  -- Within a line nothing can match, whether characters are skipped or not.
  induction m generalizing k with
  | nil =>
    obtain rfl : k = 0 := Nat.le_zero.mp hk
    rfl
  | cons c m ih =>
    rw [List.mem_cons, not_or] at hm
    have hc : decide (c = '\n') = false := decide_eq_false (Ne.symm hm.1)
    cases k with
    | zero =>
      rw [List.cons_append, lineMatchesFrom, hc]
      exact ih hm.2 (Nat.zero_le _)
    | succ k =>
      rw [List.cons_append, lineMatchesFrom, hc]
      exact ih hm.2 (Nat.le_of_succ_le_succ hk)

/-- On the rest of a last line that was begun before, nothing is recognised. -/
theorem lineMatchesFrom_inside_last {k : Nat} (hm : '\n' ∉ m) :
    lineMatchesFrom recognise k false m = [] := by
  induction m generalizing k with
  | nil => cases k <;> rfl
  | cons c m ih =>
    rw [List.mem_cons, not_or] at hm
    have hc : decide (c = '\n') = false := decide_eq_false (Ne.symm hm.1)
    cases k with
    | zero =>
      rw [lineMatchesFrom, hc]
      exact ih hm.2
    | succ k =>
      rw [lineMatchesFrom, hc]
      exact ih hm.2

/-- The matches of a text are those of its first line and those of the rest. -/
theorem lineMatches_line (hl : '\n' ∉ l) (hstay : StaysIn recognise l) (rest : List Char) :
    lineMatches recognise (l ++ '\n' :: rest)
      = found recognise l ++ lineMatches recognise rest := by
  have hfirst := hstay _ (atLineEnd_cons rest)
  rcases l with _ | ⟨c, m⟩
  · rw [List.nil_append] at hfirst ⊢
    rw [lineMatches, lineMatchesFrom, hfirst, found]
    cases recognise [] with
    | none => rfl
    | some a =>
      have hlength : rest.length - (a.2 ++ '\n' :: rest).length = 0 := by
        rw [List.length_append, List.length_cons]
        omega
      simp only [Option.map_some, hlength]
      rfl
  · rw [List.mem_cons, not_or] at hl
    have hc : decide (c = '\n') = false := decide_eq_false (Ne.symm hl.1)
    rw [List.cons_append] at hfirst ⊢
    rw [lineMatches, lineMatchesFrom, hfirst, hc, found]
    cases recognise (c :: m) with
    | none =>
      exact lineMatchesFrom_inside hl.2 (Nat.zero_le _)
    | some a =>
      -- What is left of the line behind the match is no longer than the line.
      have hlength : (m ++ '\n' :: rest).length - (a.2 ++ '\n' :: rest).length ≤ m.length := by
        rw [List.length_append, List.length_append]
        omega
      exact congrArg (a.1 :: ·) (lineMatchesFrom_inside hl.2 hlength)

/-- The matches of a text that is a single line. -/
theorem lineMatches_last (hl : '\n' ∉ l) (hne : l ≠ []) :
    lineMatches recognise l = found recognise l := by
  obtain ⟨c, m, rfl⟩ := List.exists_cons_of_ne_nil hne
  rw [List.mem_cons, not_or] at hl
  have hc : decide (c = '\n') = false := decide_eq_false (Ne.symm hl.1)
  rw [lineMatches, lineMatchesFrom, hc, found]
  cases recognise (c :: m) with
  | none => exact lineMatchesFrom_inside_last hl.2
  | some a => exact congrArg (a.1 :: ·) (lineMatchesFrom_inside_last hl.2)

/-- A line that is not empty and that a recogniser reads on its own. -/
structure ReadAlone (recognise : Recogniser α) (l : List Char) : Prop where
  /-- The line is not empty. -/
  nonempty : l ≠ []
  /-- It is one line. -/
  oneLine : '\n' ∉ l
  /-- The lines behind it do not matter. -/
  staysIn : StaysIn recognise l

/-- A line that a recogniser reads on its own, and what it finds there. -/
structure Reads (recognise : Recogniser α) (l : List Char) (as : List α) : Prop
    extends ReadAlone recognise l where
  /-- That is found. -/
  finds : found recognise l = as

/-- A line is read on its own if a match is found that does not depend on the lines behind it. -/
theorem reads_of_some {a : α} {t : List Char} (hne : l ≠ []) (hline : '\n' ∉ l)
    (h : ∀ rest, AtLineEnd rest → recognise (l ++ rest) = some (a, t ++ rest)) :
    Reads recognise l [a] := by
  have hself := h [] atLineEnd_nil
  rw [List.append_nil, List.append_nil] at hself
  refine ⟨⟨hne, hline, fun rest hrest => ?_⟩, ?_⟩
  · rw [h rest hrest, hself]
    rfl
  · rw [found, hself]
    rfl

/-- A line is read on its own if nothing is found, whatever stands behind it. -/
theorem reads_of_none (hne : l ≠ []) (hline : '\n' ∉ l)
    (h : ∀ rest, recognise (l ++ rest) = none) : Reads recognise l [] := by
  have hself := h []
  rw [List.append_nil] at hself
  refine ⟨⟨hne, hline, fun rest _ => ?_⟩, ?_⟩
  · rw [h rest, hself]
    rfl
  · rw [found, hself]
    rfl

/-- The matches of some lines and of what stands behind them. -/
theorem lineMatches_joined_append {ls : List (List Char)} (hne : ls ≠ [])
    (h : ∀ l ∈ ls, ReadAlone recognise l) (rest : List Char) :
    lineMatches recognise (joined ['\n'] ls ++ '\n' :: rest)
      = ls.flatMap (found recognise) ++ lineMatches recognise rest := by
  induction ls with
  | nil => exact absurd rfl hne
  | cons l ls ih =>
    have hl := h l List.mem_cons_self
    rcases ls with _ | ⟨m, ls⟩
    · simpa using lineMatches_line hl.oneLine hl.staysIn rest
    · have hrest := ih (List.cons_ne_nil _ _) fun m hm => h m (List.mem_cons_of_mem _ hm)
      rw [joined_cons_cons, List.append_assoc, List.append_assoc, List.singleton_append,
        lineMatches_line hl.oneLine hl.staysIn, hrest]
      simp only [List.flatMap_cons, List.append_assoc]

/-- The matches of some lines. -/
theorem lineMatches_joined {ls : List (List Char)} (h : ∀ l ∈ ls, ReadAlone recognise l) :
    lineMatches recognise (joined ['\n'] ls) = ls.flatMap (found recognise) := by
  rcases List.eq_nil_or_concat ls with rfl | ⟨front, last, rfl⟩
  · rfl
  · rw [List.concat_eq_append] at h ⊢
    have hlast := h last (by simp)
    rcases front with _ | ⟨first, front⟩
    · simpa using lineMatches_last hlast.oneLine hlast.nonempty
    · have hfront : ∀ l ∈ first :: front, ReadAlone recognise l :=
        fun l hl => h l (List.mem_append_left _ hl)
      rw [joined_append _ (List.cons_ne_nil _ _) (List.cons_ne_nil _ _), joined_singleton,
        List.append_assoc, List.singleton_append,
        lineMatches_joined_append (List.cons_ne_nil _ _) hfront,
        lineMatches_last hlast.oneLine hlast.nonempty, List.flatMap_append, List.flatMap_singleton]

/-- An empty line has no matches if nothing is recognised in front of a line feed. -/
theorem lineMatches_lineFeed (h : ∀ rest, recognise ('\n' :: rest) = none) (rest : List Char) :
    lineMatches recognise ('\n' :: rest) = lineMatches recognise rest := by
  rw [lineMatches, lineMatchesFrom, h rest]
  rfl

/-- The matches of a text of paragraphs: those of their lines. -/
theorem lineMatches_paragraphs {ps : List (List (List Char))}
    (hfeed : ∀ rest, recognise ('\n' :: rest) = none) (hne : ∀ p ∈ ps, p ≠ [])
    (h : ∀ p ∈ ps, ∀ l ∈ p, ReadAlone recognise l) :
    lineMatches recognise (joined ['\n', '\n'] (ps.map (joined ['\n'])) ++ ['\n'])
      = ps.flatMap fun p => p.flatMap (found recognise) := by
  induction ps with
  | nil => exact lineMatches_lineFeed hfeed []
  | cons p ps ih =>
    have hp := hne p List.mem_cons_self
    have hlines := h p List.mem_cons_self
    -- The blank line between two paragraphs is passed without a match.
    rcases ps with _ | ⟨q, ps⟩
    · rw [List.map_singleton, joined_singleton, lineMatches_joined_append hp hlines,
        List.flatMap_singleton]
      exact List.append_nil _
    · have hrest := ih (fun q hq => hne q (List.mem_cons_of_mem _ hq))
        fun q hq => h q (List.mem_cons_of_mem _ hq)
      rw [List.map_cons, List.map_cons, joined_cons_cons, ← List.map_cons, List.append_assoc,
        List.append_assoc, List.cons_append, List.singleton_append,
        lineMatches_joined_append hp hlines, lineMatches_lineFeed hfeed, hrest]
      rfl

/-- A match stands at the start of a line. -/
theorem exists_of_mem_lineMatches {a : α} (h : a ∈ lineMatches recognise cs) :
    ∃ front rest tail, cs = front ++ rest ∧ (front = [] ∨ front.getLast? = some '\n') ∧
      recognise rest = some (a, tail) := by
  have hfrom : ∀ (cs : List Char) (k : Nat) (atStart : Bool),
      a ∈ lineMatchesFrom recognise k atStart cs → ∃ front rest tail, cs = front ++ rest ∧
        (front = [] ∧ atStart ∨ front.getLast? = some '\n') ∧
        recognise rest = some (a, tail) := by
    intro cs
    induction cs with
    | nil => simp [lineMatchesFrom]
    | cons c cs ih =>
      -- A match in the rest of the text is one line start further if a line ends in front of it.
      have hrest : ∀ {atStart : Bool} (k : Nat), a ∈ lineMatchesFrom recognise k (c = '\n') cs →
          ∃ front rest tail, c :: cs = front ++ rest ∧
            (front = [] ∧ atStart ∨ front.getLast? = some '\n') ∧
            recognise rest = some (a, tail) := by
        intro atStart k hmem
        obtain ⟨front, rest, tail, rfl, hfront, hfound⟩ := ih k _ hmem
        refine ⟨c :: front, rest, tail, rfl, .inr ?_, hfound⟩
        rcases hfront with ⟨rfl, hc⟩ | hfront
        · simpa using hc
        · rw [List.getLast?_cons, hfront]
          rfl
      intro k atStart hmem
      rcases k with _ | k
      · cases atStart with
        | false => exact hrest 0 hmem
        | true =>
          rw [lineMatchesFrom] at hmem
          split at hmem
          · rename_i x tail hfound
            rcases List.mem_cons.mp hmem with rfl | hmem
            · exact ⟨[], c :: cs, tail, rfl, .inl ⟨rfl, rfl⟩, hfound⟩
            · exact hrest _ hmem
          · exact hrest 0 hmem
      · exact hrest k hmem
  obtain ⟨front, rest, tail, hcs, hfront, hfound⟩ := hfrom cs 0 true h
  exact ⟨front, rest, tail, hcs, hfront.imp_left And.left, hfound⟩

/-! ## Lines of Unicode -/

/-- A character that ends no line is the first one of the first line of what follows. -/
theorem lines_cons_of_not_end (hc : isLineEnd c = false) (cs : List Char) :
    lines (c :: cs) = match cs with
      | [] => [[c]]
      | d :: _ => if isLineEnd d then [c] :: (lines cs).tail else consFirst c (lines cs) := by
  have hr : c ≠ '\r' := by
    rintro rfl
    exact absurd hc (by decide)
  rw [lines.eq_def]
  split
  · rename_i h
    cases h
  · rename_i h
    exact absurd (List.cons.inj h).1 hr
  · rename_i h
    obtain ⟨rfl, rfl⟩ := List.cons.inj h
    exact if_neg (by simp [hc])

/-- The first line of a text goes up to the first line end. -/
theorem exists_lines_cons (hc : isLineEnd c = false) (cs : List Char) :
    ∃ ws, lines (c :: cs) = (c :: cs.takeWhile fun d => !isLineEnd d) :: ws := by
  induction cs generalizing c with
  | nil => exact ⟨[], lines_cons_of_not_end hc []⟩
  | cons d cs ih =>
    rw [lines_cons_of_not_end hc]
    by_cases hd : isLineEnd d
    · exact ⟨(lines (d :: cs)).tail, by simp [hd]⟩
    · obtain ⟨ws, hlines⟩ := ih (by simpa using hd)
      exact ⟨ws, by simp [hd, hlines, consFirst]⟩

/-- A character that ends a line by itself leaves an empty line in front of the others. -/
theorem lines_cons_of_end (hc : isLineEnd c) (h : c ≠ '\r' ∨ cs.head? ≠ some '\n') :
    lines (c :: cs) = [] :: lines cs := by
  rw [lines.eq_def]
  split
  · rename_i h; cases h
  · rename_i h'
    obtain ⟨rfl, rfl⟩ := List.cons.inj h'
    simp at h
  · rename_i h'
    obtain ⟨rfl, rfl⟩ := List.cons.inj h'
    exact if_pos hc

/-- A return and a line feed together end one line. -/
theorem lines_pair (cs : List Char) : lines ('\r' :: '\n' :: cs) = [] :: lines cs := by
  rw [lines.eq_def]
  rfl

/-- A text with a character has a line. -/
theorem lines_ne_nil (c : Char) (cs : List Char) : lines (c :: cs) ≠ [] := by
  by_cases hc : isLineEnd c
  · by_cases hpair : c ≠ '\r' ∨ cs.head? ≠ some '\n'
    · rw [lines_cons_of_end hc hpair]
      exact List.cons_ne_nil _ _
    · rw [not_or, not_not, not_not] at hpair
      obtain ⟨rfl, hhead⟩ := hpair
      obtain ⟨rest, rfl⟩ := List.head?_eq_some_iff.mp hhead
      rw [lines_pair]
      exact List.cons_ne_nil _ _
  · obtain ⟨ws, hlines⟩ := exists_lines_cons (by simpa using hc) cs
    rw [hlines]
    exact List.cons_ne_nil _ _

/-- A line feed ends a line. It makes an empty line of its own only if it stands behind another line
end. -/
theorem exists_lines_append (a : List Char) :
    ∃ gap : List (List Char), (∀ l ∈ gap, l = []) ∧
      ∀ b, lines (a ++ '\n' :: b) = lines a ++ gap ++ lines b := by
  have hfeed : isLineEnd '\n' := by decide
  induction a using lines.induct with
  | case1 => exact ⟨[[]], by simp, fun b => lines_cons_of_end hfeed (.inl (by decide))⟩
  | case2 cs ih =>
    obtain ⟨gap, hgap, hlines⟩ := ih
    refine ⟨gap, hgap, fun b => ?_⟩
    rw [List.cons_append, List.cons_append, lines_pair, lines_pair, hlines]
    rfl
  | case3 c cs hpair hc ih =>
    obtain ⟨gap, hgap, hlines⟩ := ih
    rcases cs with _ | ⟨d, cs⟩
    · by_cases hreturn : c = '\r'
      · -- The line feed belongs to the carriage return.
        subst hreturn
        exact ⟨[], by simp, fun b => lines_pair b⟩
      · refine ⟨gap, hgap, fun b => ?_⟩
        rw [List.cons_append, lines_cons_of_end hc (.inl hreturn),
          lines_cons_of_end hc (.inl hreturn), hlines]
        rfl
    · have hcs : ∀ b, c ≠ '\r' ∨ (d :: b).head? ≠ some '\n' := fun b =>
        not_and_or.mp fun ⟨hc, hd⟩ => hpair cs hc (by rw [Option.some.inj hd])
      refine ⟨gap, hgap, fun b => ?_⟩
      have hfirst : lines (c :: (d :: cs ++ '\n' :: b)) = [] :: lines (d :: cs ++ '\n' :: b) :=
        lines_cons_of_end hc (hcs _)
      rw [List.cons_append, hfirst, lines_cons_of_end hc (hcs _), hlines]
      rfl
  | case4 c hc hpair =>
    have hc : isLineEnd c = false := by simpa using hc
    refine ⟨[], by simp, fun b => ?_⟩
    rw [List.singleton_append, lines_cons_of_not_end hc, lines_cons_of_not_end hc]
    simp only [hfeed, if_true, lines_cons_of_end hfeed (.inl (by decide : '\n' ≠ '\r'))]
    rfl
  | case5 c hc d rest hd hpair ih =>
    have hc : isLineEnd c = false := by simpa using hc
    obtain ⟨gap, hgap, hlines⟩ := ih
    refine ⟨gap, hgap, fun b => ?_⟩
    obtain ⟨w, ws, hws⟩ := List.exists_cons_of_ne_nil (lines_ne_nil d rest)
    have hrest := hlines b
    rw [List.cons_append] at hrest ⊢
    rw [List.cons_append, lines_cons_of_not_end hc, lines_cons_of_not_end hc]
    simp [hd, hrest, hws]
  | case6 c hc d rest hd hpair ih =>
    have hc : isLineEnd c = false := by simpa using hc
    obtain ⟨gap, hgap, hlines⟩ := ih
    refine ⟨gap, hgap, fun b => ?_⟩
    obtain ⟨w, ws, hws⟩ := List.exists_cons_of_ne_nil (lines_ne_nil d rest)
    have hrest := hlines b
    rw [List.cons_append] at hrest ⊢
    rw [List.cons_append, lines_cons_of_not_end hc, lines_cons_of_not_end hc]
    simp [hd, hrest, hws, consFirst]

/-- A line without line ends is the first line of a text. -/
theorem lines_append (hne : l ≠ []) (hl : ∀ c ∈ l, isLineEnd c = false) (rest : List Char) :
    lines (l ++ '\n' :: rest) = l :: lines rest := by
  have hfeed : ∀ rest, lines ('\n' :: rest) = [] :: lines rest := by
    intro rest
    rw [lines.eq_def]
    rfl
  induction l with
  | nil => exact absurd rfl hne
  | cons c l ih =>
    rw [List.cons_append, lines_cons_of_not_end (hl c List.mem_cons_self)]
    -- The last character of the line has the line feed behind it, any other one the next.
    rcases l with _ | ⟨d, l⟩
    · simp only [List.nil_append, hfeed]
      rfl
    · have hd : isLineEnd d = false := hl d (by simp)
      have hrest := ih (List.cons_ne_nil _ _) fun c hc => hl c (List.mem_cons_of_mem _ hc)
      rw [List.cons_append] at hrest ⊢
      simp only [hd, hrest]
      rfl

/-- A text without a line end is its only line. -/
theorem lines_self (hne : l ≠ []) (hl : ∀ c ∈ l, isLineEnd c = false) : lines l = [l] := by
  induction l with
  | nil => exact absurd rfl hne
  | cons c l ih =>
    rw [lines_cons_of_not_end (hl c List.mem_cons_self)]
    rcases l with _ | ⟨d, l⟩
    · rfl
    · have hd : isLineEnd d = false := hl d (by simp)
      have hrest := ih (List.cons_ne_nil _ _) fun c hc => hl c (List.mem_cons_of_mem _ hc)
      simp only [hd, hrest]
      rfl

/-- Lines without line ends are the lines of the text that they are joined to. -/
theorem lines_joined {ls : List (List Char)}
    (h : ∀ l ∈ ls, l ≠ [] ∧ ∀ c ∈ l, isLineEnd c = false) : lines (joined ['\n'] ls) = ls := by
  induction ls with
  | nil => rfl
  | cons l ls ih =>
    obtain ⟨hne, hl⟩ := h l List.mem_cons_self
    rcases ls with _ | ⟨m, ls⟩
    · exact lines_self hne hl
    · rw [joined_cons_cons, List.append_assoc, List.singleton_append, lines_append hne hl,
        ih fun m hm => h m (List.mem_cons_of_mem _ hm)]

/-! ## Fields and ends -/

/-- A text without the separator is not split. -/
theorem splitOn_of_not_mem {sep : Char} (h : sep ∉ cs) : splitOn sep cs = [cs] := by
  induction cs with
  | nil => rfl
  | cons c cs ih =>
    rw [List.mem_cons, not_or] at h
    rw [splitOn, if_neg (Ne.symm h.1), ih h.2]
    rfl

/-- Splitting leaves at least one part. -/
theorem splitOn_ne_nil (sep : Char) (cs : List Char) : splitOn sep cs ≠ [] := by
  cases cs with
  | nil => exact List.cons_ne_nil _ _
  | cons c cs =>
    rw [splitOn]
    split
    · exact List.cons_ne_nil _ _
    · cases splitOn sep cs <;> exact List.cons_ne_nil _ _

/-- The pieces of a text are those in front of an occurrence and those behind it. -/
theorem splitOn_append_cons (sep : Char) (a b : List Char) :
    splitOn sep (a ++ sep :: b) = splitOn sep a ++ splitOn sep b := by
  induction a with
  | nil => exact if_pos rfl
  | cons c a ih =>
    rw [List.cons_append, splitOn, splitOn, ih]
    split
    · rfl
    · obtain ⟨w, ws, hpieces⟩ := List.exists_cons_of_ne_nil (splitOn_ne_nil sep a)
      rw [hpieces]
      rfl

/-- The pieces of a text, joined again. -/
theorem joined_splitOn (sep : Char) (cs : List Char) : joined [sep] (splitOn sep cs) = cs := by
  induction cs with
  | nil => rfl
  | cons c cs ih =>
    -- There is always a first piece, so the split at `c` opens a new one or lengthens it.
    obtain ⟨w, ws, hpieces⟩ := List.exists_cons_of_ne_nil (splitOn_ne_nil sep cs)
    rw [hpieces] at ih
    rw [splitOn, hpieces]
    split
    · rename_i hc
      rw [joined_cons_cons, ih, hc]
      rfl
    · rw [consFirst]
      cases ws with
      | nil => rw [joined_singleton] at ih ⊢; rw [ih]
      | cons w' ws =>
        rw [joined_cons_cons, List.cons_append, List.cons_append, ← joined_cons_cons, ih]

/-- The first separator ends the first part. -/
theorem splitOn_append {sep : Char} (h : sep ∉ l) (rest : List Char) :
    splitOn sep (l ++ sep :: rest) = l :: splitOn sep rest := by
  rw [splitOn_append_cons, splitOn_of_not_mem h, List.singleton_append]

/-- A text is its first piece, or goes on behind it with the separator. -/
theorem before_eq_iff {sep : Char} {piece : List Char} (h : sep ∉ piece) :
    before sep cs = piece ↔ cs = piece ∨ piece ++ [sep] <+: cs := by
  have hpiece : ∀ rest, before sep (piece ++ sep :: rest) = piece :=
    takeWhile_ne_append h
  constructor
  · -- What comes behind the piece is nothing, or it begins with the separator.
    intro hbefore
    have hsplit : piece ++ cs.dropWhile (· ≠ sep) = cs :=
      hbefore ▸ List.takeWhile_append_dropWhile
    cases hrest : cs.dropWhile (· ≠ sep) with
    | nil => exact .inl (by rw [← hsplit, hrest, List.append_nil])
    | cons c rest =>
      have hsep : c = sep := by
        have hhead := List.head?_dropWhile_not (· ≠ sep) cs
        rw [hrest] at hhead
        simpa using hhead
      refine .inr ⟨rest, ?_⟩
      rw [← hsplit, hrest, hsep, List.append_assoc, List.singleton_append]
  · rintro (rfl | ⟨rest, rfl⟩)
    · refine List.takeWhile_eq_self_iff.mpr fun c hc => decide_eq_true ?_
      exact ne_of_mem_of_not_mem hc h
    · rw [List.append_assoc, List.singleton_append, hpiece]

variable {p : Char → Bool}

/-- Dropping characters from the end is the operation of the library. -/
theorem dropEnd_eq_rdropWhile (p : Char → Bool) (cs : List Char) :
    dropEnd p cs = cs.rdropWhile p := rfl

/-- A character that is to be dropped makes no difference at the end. -/
theorem dropEnd_append_of_pos (hc : p c) (cs : List Char) :
    dropEnd p (cs ++ [c]) = dropEnd p cs :=
  List.rdropWhile_concat_pos p cs c hc

/-- Nothing is dropped from the end of a text whose last character stays. -/
theorem dropEnd_of_getLast? (h : ∀ c ∈ cs.getLast?, ¬ p c) : dropEnd p cs = cs := by
  refine List.rdropWhile_eq_self_iff.mpr fun hne => ?_
  exact h _ (List.getLast_mem_getLast? hne)

/-- A character that stays keeps the text from becoming empty. -/
theorem dropEnd_ne_nil (hmem : c ∈ cs) (hc : ¬ p c) : dropEnd p cs ≠ [] := by
  rw [dropEnd_eq_rdropWhile, ne_eq, List.rdropWhile_eq_nil_iff]
  exact fun hall => hc (hall c hmem)

/-- Trimming adds no characters. -/
theorem trim_subset (cs : List Char) : trim cs ⊆ cs := by
  rw [trim, trimEnd, dropEnd_eq_rdropWhile]
  exact ((List.rdropWhile_prefix _ _).sublist.trans (List.dropWhile_sublist _)).subset

/-- A blank in front makes no difference to trimming. -/
theorem trim_cons_of_blank (hc : isBlank c) (cs : List Char) : trim (c :: cs) = trim cs := by
  rw [trim, List.dropWhile_cons_of_pos hc, trim]

/-- A text with a character that is no blank is not empty after trimming. -/
theorem trim_cons_ne_nil (hc : ¬ isBlank c) (cs : List Char) : trim (c :: cs) ≠ [] := by
  rw [trim, List.dropWhile_cons_of_neg hc]
  exact dropEnd_ne_nil List.mem_cons_self hc

/-- A word without blanks is what is left of it with blanks around. -/
theorem trim_append {w : List Char} (hw : ∀ c ∈ w, ¬ isBlank c) (n : Nat) :
    trim (w ++ List.replicate n ' ') = w := by
  have hblank : isBlank ' ' := by decide
  -- The blanks behind the word are taken away one by one.
  have hend : dropEnd isBlank (w ++ List.replicate n ' ') = w := by
    induction n with
    | zero =>
      rw [List.replicate_zero, List.append_nil]
      exact dropEnd_of_getLast? fun c hc => hw c (List.mem_of_getLast? hc)
    | succ n ih => rw [List.replicate_succ', ← List.append_assoc, dropEnd_append_of_pos hblank, ih]
  rcases w with _ | ⟨c, w⟩
  · have hdrop : (List.replicate n ' ').dropWhile isBlank = [] :=
      List.dropWhile_eq_nil_iff.mpr fun c hc => (List.eq_of_mem_replicate hc) ▸ hblank
    rw [List.nil_append, trim, hdrop]
    rfl
  · rw [List.cons_append, trim, List.dropWhile_cons_of_neg (hw c List.mem_cons_self), trimEnd,
      ← List.cons_append, hend]

/-- A blank at the front of a text is not seen in its trimmed pieces. -/
theorem map_trim_splitOn_cons {sep : Char} (hc : isBlank c) (hsep : c ≠ sep) (cs : List Char) :
    (splitOn sep (c :: cs)).map trim = (splitOn sep cs).map trim := by
  obtain ⟨w, ws, hpieces⟩ := List.exists_cons_of_ne_nil (splitOn_ne_nil sep cs)
  rw [splitOn, if_neg hsep, hpieces, consFirst, List.map_cons, trim_cons_of_blank hc, List.map_cons]

/-- Words with separators and blanks between them are found again. -/
theorem map_trim_splitOn_joined {sep : Char} (hsep : ' ' ≠ sep) {ws : List (List Char)}
    (hne : ws ≠ []) (h : ∀ w ∈ ws, sep ∉ w ∧ ∀ c ∈ w, ¬ isBlank c) (n : Nat) :
    (splitOn sep (joined [sep, ' '] ws ++ List.replicate n ' ')).map trim = ws := by
  induction ws with
  | nil => exact absurd rfl hne
  | cons w ws ih =>
    obtain ⟨hw, hblank⟩ := h w List.mem_cons_self
    -- Blanks at the end belong to the last name, those in front to the others.
    rcases ws with _ | ⟨w', ws⟩
    · have hnot : sep ∉ w ++ List.replicate n ' ' := fun hmem =>
        (List.mem_append.mp hmem).elim hw fun hmem => hsep (List.eq_of_mem_replicate hmem).symm
      rw [joined_singleton, splitOn_of_not_mem hnot, List.map_singleton, trim_append hblank]
    · have hrest := ih (List.cons_ne_nil _ _) fun v hv => h v (List.mem_cons_of_mem _ hv)
      have hsplit : joined [sep, ' '] (w :: w' :: ws) ++ List.replicate n ' '
          = w ++ sep :: (' ' :: (joined [sep, ' '] (w' :: ws) ++ List.replicate n ' ')) := by
        simp [joined_cons_cons]
      have htrim : trim w = w := by simpa using trim_append hblank 0
      rw [hsplit, splitOn_append hw, List.map_cons, map_trim_splitOn_cons (by decide) hsep, hrest,
        htrim]

end ClientGen.Text
