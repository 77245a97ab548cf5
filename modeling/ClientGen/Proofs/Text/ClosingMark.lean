import ClientGen.Endpoint.Basic
import ClientGen.Proofs.Schema.Printing

/-!
# The mark that ends a comment

A comment ends at the first star with a slash behind it. Texts of a document are defused before they
go into a comment: a backslash comes between the two characters.

* `closingMark_infix_append_cons`: a character other than these two keeps apart what is around it.
* `closingMark_not_infix_commentText`: a defused text has no mark.
* `ClosesAtEnd`: a comment that ends where its text ends, and `closesAtEnd_append_iff`: what makes
  it so.
-/

namespace ClientGen

/-- The characters that end a comment. -/
def closingMark : List Char := ['*', '/']

variable {c : Char} {as bs cs : List Char}

theorem closingMark_not_prefix_of_ne (hc : c ≠ '*') : ¬ closingMark <+: c :: cs := fun h =>
  hc (List.cons_prefix_cons.mp h).1.symm

/-- No mark goes across a character that is neither a star nor a slash. -/
theorem closingMark_infix_append_cons (hstar : c ≠ '*') (hslash : c ≠ '/') :
    closingMark <:+: as ++ c :: bs ↔ closingMark <:+: as ∨ closingMark <:+: bs := by
  induction as with
  | nil =>
    rw [List.nil_append, List.infix_cons_iff]
    have hempty : ¬ closingMark <:+: [] := by decide
    simp only [closingMark_not_prefix_of_ne hstar, hempty]
  | cons a as ih =>
    rw [List.cons_append, List.infix_cons_iff, List.infix_cons_iff, ih, or_assoc]
    have hfront : closingMark <+: a :: (as ++ c :: bs) ↔ closingMark <+: a :: as := by
      cases as with
      | nil => simp [closingMark, Ne.symm hslash]
      | cons b as => simp [closingMark]
    rw [hfront]

/-- A text without stars has no mark. -/
theorem closingMark_not_infix_of_not_mem (h : '*' ∉ cs) : ¬ closingMark <:+: cs := fun hmark =>
  h (hmark.subset (by decide))

/-- Joining texts by single spaces makes no mark. -/
theorem closingMark_not_infix_joined {ws : List (List Char)}
    (h : ∀ w ∈ ws, ¬ closingMark <:+: w) : ¬ closingMark <:+: Text.joined [' '] ws := by
  induction ws with
  | nil => decide
  | cons w ws ih =>
    rw [List.forall_mem_cons] at h
    rcases ws with _ | ⟨v, ws⟩
    · exact h.1
    · rw [Text.joined_cons_cons, List.append_assoc, List.singleton_append,
        closingMark_infix_append_cons (by decide) (by decide)]
      exact not_or.mpr ⟨h.1, ih h.2⟩

/-! ## Defused texts -/

/-- A defused text starts with a slash only if the text does. -/
theorem exists_cons_of_defuse (h : ['/'] <+: defuse cs) : ∃ rest, cs = '/' :: rest := by
  cases cs with
  | nil => exact absurd h (by decide)
  | cons d rest =>
    by_cases hd : d = '/'
    · exact ⟨rest, by rw [hd]⟩
    · -- The first character is kept in any case, so it would have to be the slash.
      exfalso
      rw [defuse.eq_def] at h
      split at h
      · rename_i heq
        cases heq
      · exact absurd (List.cons_prefix_cons.mp h).1 (by decide)
      · rename_i e cs' _ heq
        obtain ⟨rfl, rfl⟩ := List.cons.inj heq
        exact hd (List.cons_prefix_cons.mp h).1.symm

/-- A defused text has no mark, also where two of its parts meet. -/
theorem closingMark_not_infix_defuse (cs : List Char) : ¬ closingMark <:+: defuse cs := by
  fun_induction defuse cs with
  | case1 => decide
  | case2 cs ih =>
    -- The backslash keeps the star and the slash apart.
    rw [List.infix_cons_iff, closingMark, List.cons_prefix_cons, ← closingMark]
    have hslash : ¬ closingMark <:+: '\\' :: '/' :: defuse cs := by
      rw [List.infix_cons_iff, List.infix_cons_iff]
      exact not_or.mpr ⟨closingMark_not_prefix_of_ne (by decide),
        not_or.mpr ⟨closingMark_not_prefix_of_ne (by decide), ih⟩⟩
    have hfront : ¬ ['/'] <+: '\\' :: '/' :: defuse cs := fun h =>
      absurd (List.cons_prefix_cons.mp h).1 (by decide)
    exact not_or.mpr ⟨fun h => hfront h.2, hslash⟩
  | case3 c cs hmark ih =>
    rw [List.infix_cons_iff]
    refine not_or.mpr ⟨fun h => ?_, ih⟩
    obtain ⟨hc, hslash⟩ := List.cons_prefix_cons.mp h
    obtain ⟨rest, rfl⟩ := exists_cons_of_defuse hslash
    exact hmark rest hc.symm rfl

theorem closingMark_not_infix_commentText (s : String) :
    ¬ closingMark <:+: (commentText s).toList := by
  rw [commentText, String.toList_ofList]
  exact closingMark_not_infix_defuse _

/-- What an operation does is said without a mark. -/
theorem closingMark_not_infix_describe (o : Operation) :
    ¬ closingMark <:+: (Endpoint.describe o).toList := by
  unfold Endpoint.describe
  split
  · exact closingMark_not_infix_commentText _
  · exact closingMark_not_infix_commentText _
  · decide

/-! ## Comments -/

/-- A comment ends with the mark and has it nowhere before. -/
structure ClosesAtEnd (comment : String) : Prop where
  /-- The mark is at the end. -/
  ends : closingMark <:+ comment.toList
  /-- Nothing stands behind a mark. -/
  only : ∀ before after, comment.toList = before ++ closingMark ++ after → after = []

/-- What stands in front of the mark at the end of a comment may not have one itself. -/
theorem closesAtEnd_append_iff {text : String} :
    ClosesAtEnd (text ++ "*/") ↔ ¬ closingMark <:+: text.toList := by
  have htext : (text ++ "*/").toList = text.toList ++ closingMark := String.toList_append
  constructor
  · rintro h ⟨before, after, heq⟩
    have hafter := h.only before (after ++ closingMark) (by
      rw [htext, ← heq, List.append_assoc])
    exact absurd hafter (by simp [closingMark])
  · intro h
    refine ⟨htext ▸ List.suffix_append _ _, fun before after heq => ?_⟩
    rw [htext] at heq
    rcases List.append_eq_append_iff.mp heq with ⟨rest, hbefore, hmark⟩ | ⟨rest, htext, -⟩
    · -- The mark at the end is cut in two, and only its end can follow another mark.
      match rest, hmark with
      | [], hmark =>
        rw [List.append_nil] at hbefore
        exact absurd ⟨before, [], by rw [List.append_nil, hbefore]⟩ h
      | [d], hmark =>
        obtain ⟨rfl, -⟩ := List.cons.inj hmark
        have hlast := congrArg List.getLast? hbefore
        rw [closingMark, List.getLast?_append_cons, List.getLast?_concat] at hlast
        exact absurd hlast (by decide)
      | [_, _], hmark => exact (List.cons.inj (List.cons.inj hmark).2).2.symm
      | _ :: _ :: _ :: _, hmark => cases (List.cons.inj (List.cons.inj hmark).2).2
    · exact absurd ⟨before, rest, htext.symm⟩ h

/-- A comment around a text on the same line ends at its end exactly if the text has no mark. -/
theorem closesAtEnd_around_iff {text : String} :
    ClosesAtEnd ("/** " ++ text ++ " */") ↔ ¬ closingMark <:+: text.toList := by
  have hsplit : "/** " ++ text ++ " */" = "/** " ++ text ++ " " ++ "*/" := by
    have hmark : " */" = " " ++ "*/" := rfl
    rw [hmark, ← String.append_assoc]
  have hinner : ("/** " ++ text ++ " ").toList
      = ['/', '*', '*'] ++ ' ' :: (text.toList ++ ' ' :: []) := by
    rw [String.toList_append, String.toList_append, List.append_assoc]
    rfl
  rw [hsplit, closesAtEnd_append_iff, hinner,
    closingMark_infix_append_cons (by decide) (by decide),
    closingMark_infix_append_cons (by decide) (by decide)]
  have hopening : ¬ closingMark <:+: ['/', '*', '*'] := by decide
  have hempty : ¬ closingMark <:+: [] := by decide
  simp only [hopening, hempty, false_or, or_false]

end ClientGen
