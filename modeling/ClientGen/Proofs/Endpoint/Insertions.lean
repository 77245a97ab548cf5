import ClientGen.Proofs.Endpoint.Placeholders

/-!
# What becomes of a placeholder

All parameters of a path are tried on every placeholder, in order. The placeholder becomes the
insertion of its identifier and stays so, unless a parameter is found inside of its name before its
own turn comes, or in the insertion after it.

* `PathTemplate.rewritten_cases`: one parameter.
* `PathTemplate.settled_eq_insertion`: a placeholder that becomes an insertion.
* `PathTemplate.insertion_of_settled`: why a placeholder has become an insertion.
-/

namespace ClientGen

namespace PathTemplate

open Text

/-! ## One parameter -/

section Rewriting

variable {name arg u : List Char}

/-- A text that does not end with the placeholder stays as it is. -/
theorem rewritten_eq_self (h : ¬ '{' :: name <:+ u) : rewritten name arg u = u := by
  induction u with
  | nil => rfl
  | cons c u ih =>
    rw [List.suffix_cons_iff, not_or] at h
    rw [rewritten, if_neg fun heq => h.1 heq.symm, ih h.2]

/-- A placeholder at the end becomes the insertion. -/
theorem rewritten_append (name arg before : List Char) :
    rewritten name arg (before ++ '{' :: name) = before ++ '$' :: '{' :: arg := by
  induction before with
  | nil => rw [List.nil_append, rewritten, if_pos rfl, List.nil_append]
  | cons c before ih =>
    rw [List.cons_append, rewritten, if_neg, ih, List.cons_append]
    intro heq
    have hlength := congrArg List.length heq
    simp only [List.length_cons, List.length_append] at hlength
    omega

/-- A name is inserted where it ends the text, or nothing happens. -/
theorem rewritten_cases (name arg u : List Char) :
    (¬ '{' :: name <:+ u ∧ rewritten name arg u = u) ∨
      ∃ before, u = before ++ '{' :: name ∧
        rewritten name arg u = before ++ '$' :: '{' :: arg := by
  by_cases h : '{' :: name <:+ u
  · obtain ⟨before, rfl⟩ := h
    exact .inr ⟨before, rfl, rewritten_append name arg before⟩
  · exact .inl ⟨h, rewritten_eq_self h⟩

end Rewriting

/-! ## All parameters -/

section Settled

variable {made : List (String × String)} {arg q u v w : List Char}

/-- What two runs of parameters make of a text is what the second makes of what the first does. -/
theorem settled_append (made more : List (String × String)) (u : List Char) :
    settled (made ++ more) u = settled more (settled made u) := List.foldl_append

/-- A dollar sign in front has no part in it. -/
theorem settled_dollar (made : List (String × String)) (u : List Char) :
    settled made ('$' :: u) = '$' :: settled made u := by
  induction made generalizing u with
  | nil => rfl
  | cons p made ih => rw [settled_cons, rewritten, if_neg (by simp), ih, settled_cons]

/-- Text in which no parameter is found stays as it is. -/
theorem settled_eq_self (h : ∀ p ∈ made, ¬ '{' :: p.1.toList <:+ u) : settled made u = u := by
  induction made with
  | nil => rfl
  | cons p made ih =>
    obtain ⟨hp, hmade⟩ := List.forall_mem_cons.mp h
    rw [settled_cons, rewritten_eq_self hp]
    exact ih hmade

/-- A brace that is still open has kept the text behind it, unless an insertion was made there. -/
theorem settled_open_cases (h : settled made ('{' :: v) = '{' :: w) :
    (w = v ∧ ∀ p ∈ made, ¬ '{' :: p.1.toList <:+ '{' :: v) ∨ '$' ∈ w := by
  induction made generalizing v with
  | nil =>
    obtain rfl : v = w := (List.cons.inj h).2
    exact .inl ⟨rfl, by simp⟩
  | cons p made ih =>
    rw [settled_cons] at h
    rcases rewritten_cases p.1.toList p.2.toList ('{' :: v) with
      ⟨hnone, hstep⟩ | ⟨before, hv, hstep⟩
    · rw [hstep] at h
      exact (ih h).imp (fun hsame => ⟨hsame.1, List.forall_mem_cons.mpr ⟨hnone, hsame.2⟩⟩) id
    · rw [hstep] at h
      cases before with
      | nil =>
        -- The brace belongs to the parameter itself.
        rw [List.nil_append, settled_dollar] at h
        exact absurd (List.cons.inj h).1 (by decide)
      | cons c before =>
        obtain ⟨rfl, -⟩ := List.cons.inj hv
        rcases ih h with ⟨rfl, -⟩ | hdollar
        · exact .inr (by simp)
        · exact .inr hdollar

/-- An identifier has no brace in it, so only a parameter of the same name is found there. -/
theorem not_suffix_insertion (harg : '{' ∉ arg) {name : List Char} (hname : name ≠ arg) :
    ¬ '{' :: name <:+ '{' :: arg := by
  rw [List.suffix_cons_iff]
  rintro (heq | hsuffix)
  · exact hname (List.cons.inj heq).2
  · exact harg (hsuffix.subset List.mem_cons_self)

/-- An insertion stays as it is if its identifier is no parameter. -/
theorem insertion_of_settled_insertion (hw : '$' ∉ w)
    (h : settled made ('$' :: '{' :: arg) = '$' :: '{' :: w) :
    w = arg ∧ ∀ p ∈ made, p.1.toList ≠ arg := by
  rw [settled_dollar] at h
  rcases settled_open_cases (List.cons.inj h).2 with ⟨heq, hnone⟩ | hdollar
  · exact ⟨heq, fun p hp hname => hnone p hp (hname ▸ List.suffix_rfl)⟩
  · exact absurd hdollar hw

/-- What can stand in front of the closing brace of a placeholder: the brace that opens it, behind
the dollar signs that were put in front of it. -/
structure Front (u : List Char) : Prop where
  /-- Only the one brace opens the placeholder. -/
  exists_eq : ∃ m w, u = List.replicate m '$' ++ '{' :: w ∧ '}' ∉ w

/-- Behind dollar signs an opening brace and the name become one dollar sign more and the
insertion. -/
theorem rewritten_replicate (name arg : List Char) (m : Nat) (w : List Char) :
    rewritten name arg (List.replicate m '$' ++ '{' :: w)
      = if w = name then List.replicate (m + 1) '$' ++ '{' :: arg
        else List.replicate m '$' ++ '{' :: rewritten name arg w := by
  induction m with
  | zero =>
    rw [List.replicate_zero, List.nil_append, rewritten]
    simp only [List.cons.injEq, true_and]
    rfl
  | succ m ih =>
    rw [List.replicate_succ, List.cons_append, rewritten, if_neg (by simp), ih]
    split <;> rfl

/-- What can stand in front of a closing brace can still stand there when parameters had their
turns. -/
theorem Front.settled (h : Front u) (hmade : ∀ p ∈ made, '}' ∉ p.2.toList) :
    Front (settled made u) := by
  induction made generalizing u with
  | nil => exact h
  | cons p made ih =>
    obtain ⟨hp, hrest⟩ := List.forall_mem_cons.mp hmade
    obtain ⟨m, w, rfl, hw⟩ := h
    rw [settled_cons, rewritten_replicate]
    refine ih ?_ hrest
    split
    · exact ⟨m + 1, _, rfl, hp⟩
    · exact ⟨m, _, rfl, not_mem_rewritten hw hp⟩

/-! ## Names with a parameter inside -/

/-- What a name has become in which an insertion was made: up to the first dollar sign that was put
in it is the name up to a brace. -/
structure Changed (q v : List Char) : Prop where
  /-- A dollar sign stands where the name has a brace, and a letter or digit behind it. -/
  exists_split : ∃ a z, v = a ++ '$' :: z ∧ a ++ ['{'] <+: q ∧ ∃ c ∈ z, isAsciiAlphanumeric c

variable {name : List Char}

/-- What has changed, or has not, has changed when an insertion is made at its end. -/
theorem changed_rewritten (harg : ∃ c ∈ arg, isAsciiAlphanumeric c)
    (h : v = q ∨ Changed q v) (hsuffix : '{' :: name <:+ v) : Changed q (rewritten name arg v) := by
  obtain ⟨c, hc, halpha⟩ := harg
  obtain ⟨before, hbefore⟩ := hsuffix
  rw [← hbefore, rewritten_append]
  rcases h with rfl | ⟨a, z, hv, hq, d, hd, hdalpha⟩
  · refine ⟨before, '{' :: arg, rfl, ⟨name, by simpa using hbefore⟩, c, ?_, halpha⟩
    exact List.mem_cons_of_mem _ hc
  · rcases List.append_eq_append_iff.mp (hbefore.trans hv) with
      ⟨more, rfl, hname⟩ | ⟨more, rfl, hz⟩
    · -- The name begins in front of the first insertion, with a brace that was there before.
      cases more with
      | nil => simp at hname
      | cons b more =>
        obtain ⟨rfl, -⟩ := List.cons.inj hname
        refine ⟨before, '{' :: arg, rfl, ?_, c, List.mem_cons_of_mem _ hc, halpha⟩
        refine List.IsPrefix.trans ⟨more ++ ['{'], ?_⟩ hq
        simp
    · -- The name lies behind the first insertion.
      cases more with
      | nil => simp at hz
      | cons b more =>
        obtain ⟨rfl, -⟩ := List.cons.inj hz
        exact ⟨a, more ++ '$' :: '{' :: arg, by simp, hq, c, by simp [hc], halpha⟩

/-- A name in which an insertion was made can end up as an insertion of another parameter only. -/
theorem exists_of_settled_changed (hargs : ∀ p ∈ made, ∃ c ∈ p.2.toList, isAsciiAlphanumeric c)
    (hw : '$' ∉ w) (hv : Changed q v) (h : settled made ('{' :: v) = '$' :: '{' :: w) :
    ∃ p ∈ made, p.2.toList = w ∧ Changed q p.1.toList := by
  induction made generalizing v with
  | nil => simp [settled] at h
  | cons p made ih =>
    obtain ⟨harg, hargs⟩ := List.forall_mem_cons.mp hargs
    rw [settled_cons, rewritten] at h
    split at h
    · -- The whole text is the name of `p`, so its argument is inserted and stays.
      rename_i hwhole
      obtain rfl := (List.cons.inj hwhole).2
      exact ⟨p, List.mem_cons_self, (insertion_of_settled_insertion hw h).1.symm, hv⟩
    · -- Otherwise `p` rewrites at most an end of `v`, which leaves a changed text.
      have hnext : Changed q (rewritten p.1.toList p.2.toList v) := by
        by_cases hsuffix : '{' :: p.1.toList <:+ v
        · exact changed_rewritten harg (.inr hv) hsuffix
        · rwa [rewritten_eq_self hsuffix]
      obtain ⟨p', hp', hresult⟩ := ih hargs hnext h
      exact ⟨p', List.mem_cons_of_mem p hp', hresult⟩

/-- A placeholder has become an insertion in its own turn, or a parameter was found inside of its
name before and another one has been taken for what was left. -/
theorem insertion_of_settled (hargs : ∀ p ∈ made, ∃ c ∈ p.2.toList, isAsciiAlphanumeric c)
    (hw : '$' ∉ w) (h : settled made ('{' :: q) = '$' :: '{' :: w) :
    (∃ before p after, made = before ++ p :: after ∧ p.1.toList = q ∧ p.2.toList = w ∧
      (∀ p' ∈ before, ¬ '{' :: p'.1.toList <:+ '{' :: q) ∧ ∀ p' ∈ after, p'.1.toList ≠ w) ∨
      ∃ p ∈ made, p.2.toList = w ∧ Changed q p.1.toList := by
  induction made with
  | nil => simp [settled] at h
  | cons p made ih =>
    obtain ⟨harg, hargs⟩ := List.forall_mem_cons.mp hargs
    rw [settled_cons] at h
    by_cases hwhole : '{' :: q = '{' :: p.1.toList
    · -- Its own turn.
      rw [rewritten, if_pos hwhole] at h
      obtain ⟨rfl, hafter⟩ := insertion_of_settled_insertion hw h
      exact .inl ⟨[], p, made, rfl, (List.cons.inj hwhole).2.symm, rfl, by simp, hafter⟩
    · by_cases hsuffix : '{' :: p.1.toList <:+ q
      · rw [rewritten, if_neg hwhole] at h
        have hchanged := changed_rewritten harg (.inl rfl) hsuffix
        obtain ⟨p', hp', hresult⟩ := exists_of_settled_changed hargs hw hchanged h
        exact .inr ⟨p', List.mem_cons_of_mem p hp', hresult⟩
      · have hnone : ¬ '{' :: p.1.toList <:+ '{' :: q := by
          rw [List.suffix_cons_iff]
          exact fun hor => hor.elim (fun heq => hwhole heq.symm) hsuffix
        rw [rewritten_eq_self hnone] at h
        rcases ih hargs h with ⟨before, own, after, rfl, hown, hw, hbefore, hafter⟩ | hother
        · exact .inl ⟨p :: before, own, after, rfl, hown, hw,
            List.forall_mem_cons.mpr ⟨hnone, hbefore⟩, hafter⟩
        · obtain ⟨p', hp', hresult⟩ := hother
          exact .inr ⟨p', List.mem_cons_of_mem p hp', hresult⟩

/-- A placeholder becomes an insertion in its own turn if nothing is found in it before, and its
identifier is no parameter behind. -/
theorem settled_eq_insertion {before after : List (String × String)} {p : String × String}
    (hbrace : '{' ∉ p.2.toList)
    (hbefore : ∀ p' ∈ before, ¬ '{' :: p'.1.toList <:+ '{' :: p.1.toList)
    (hafter : ∀ p' ∈ after, p'.1.toList ≠ p.2.toList) :
    settled (before ++ p :: after) ('{' :: p.1.toList) = '$' :: '{' :: p.2.toList := by
  have hfirst : settled before ('{' :: p.1.toList) = '{' :: p.1.toList := settled_eq_self hbefore
  have hown : rewritten p.1.toList p.2.toList ('{' :: p.1.toList) = '$' :: '{' :: p.2.toList :=
    rewritten_append _ _ []
  have hlater : settled after ('{' :: p.2.toList) = '{' :: p.2.toList :=
    settled_eq_self fun p' hp' => not_suffix_insertion hbrace (hafter p' hp')
  rw [settled_append, hfirst, settled_cons, hown, settled_dollar, hlater]

end Settled

end PathTemplate

end ClientGen
