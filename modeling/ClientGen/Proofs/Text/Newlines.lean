import ClientGen.Text.Lines

/-!
# Reading line ends

A text that is read back has line feeds as its only line ends. Nothing else about it changes.

* `unifyNewlines_append`: a text is read piece by piece, if no pair of characters is cut apart.
* `unifyNewlines_unifyNewlines`: a text that was read back is read back as it is.
* `countP_unifyNewlines`: no other characters are lost.
-/

namespace ClientGen.Text

variable {a b : List Char} {c : Char}

@[simp]
theorem unifyNewlines_nil : unifyNewlines [] = [] := unifyNewlines.eq_1

/-- A return and a line feed together become one line feed. -/
@[simp]
theorem unifyNewlines_pair (cs : List Char) :
    unifyNewlines ('\r' :: '\n' :: cs) = '\n' :: unifyNewlines cs := unifyNewlines.eq_2 cs

/-- A character that is no return stays as it is. -/
theorem unifyNewlines_cons (hc : c ≠ '\r') (cs : List Char) :
    unifyNewlines (c :: cs) = c :: unifyNewlines cs := by
  rw [unifyNewlines.eq_3 _ _ fun _ h => absurd h hc, if_neg hc]

/-- A carriage return with no line feed behind it is a line end. -/
theorem unifyNewlines_return {cs : List Char} (h : cs.head? ≠ some '\n') :
    unifyNewlines ('\r' :: cs) = '\n' :: unifyNewlines cs := by
  refine (unifyNewlines.eq_3 _ _ fun tail _ hcs => ?_).trans (by rw [if_pos rfl])
  exact h (by rw [hcs, List.head?_cons])

/-- A text is read piece by piece, if no pair of line end characters is cut apart. -/
theorem unifyNewlines_append (h : a.getLast? ≠ some '\r' ∨ b.head? ≠ some '\n') :
    unifyNewlines (a ++ b) = unifyNewlines a ++ unifyNewlines b := by
  induction a using unifyNewlines.induct with
  | case1 => rw [unifyNewlines_nil, List.nil_append, List.nil_append]
  | case2 cs ih =>
    have hcs : cs.getLast? ≠ some '\r' ∨ b.head? ≠ some '\n' := by
      rcases cs with _ | ⟨d, cs⟩
      · exact .inl (by simp)
      · simpa using h
    rw [List.cons_append, List.cons_append, unifyNewlines_pair, unifyNewlines_pair, ih hcs,
      List.cons_append]
  | case3 c cs hpair ih =>
    have hcs : cs.getLast? ≠ some '\r' ∨ b.head? ≠ some '\n' := by
      rcases cs with _ | ⟨d, cs⟩
      · exact .inl (by simp)
      · simpa using h
    by_cases hc : c = '\r'
    · subst hc
      -- No line feed follows the carriage return, neither in its own piece nor in the next.
      have hhead : cs.head? ≠ some '\n' ∧ (cs ++ b).head? ≠ some '\n' := by
        rcases cs with _ | ⟨d, cs⟩
        · exact ⟨by simp, by simpa using h⟩
        · have hd : d ≠ '\n' := fun hd => hpair cs rfl (hd ▸ rfl)
          exact ⟨by simpa using hd, by simpa using hd⟩
      rw [List.cons_append, unifyNewlines_return hhead.2, unifyNewlines_return hhead.1, ih hcs,
        List.cons_append]
    · rw [List.cons_append, unifyNewlines_cons hc, unifyNewlines_cons hc, ih hcs,
        List.cons_append]

/-- A text without carriage returns is read as it is. -/
theorem unifyNewlines_of_not_mem (h : '\r' ∉ a) : unifyNewlines a = a := by
  induction a with
  | nil => exact unifyNewlines_nil
  | cons c a ih =>
    rw [List.mem_cons, not_or] at h
    rw [unifyNewlines_cons (Ne.symm h.1), ih h.2]

/-- A text that was read back has no carriage returns. -/
theorem return_not_mem_unifyNewlines (a : List Char) : '\r' ∉ unifyNewlines a := by
  induction a using unifyNewlines.induct with
  | case1 => simp
  | case2 cs ih => simpa using ih
  -- A carriage return with no line feed behind it becomes one, any other character is kept.
  | case3 c cs hpair ih =>
    by_cases hc : c = '\r'
    · subst hc
      have hhead : cs.head? ≠ some '\n' := by
        intro hhead
        obtain ⟨tail, rfl⟩ := List.head?_eq_some_iff.mp hhead
        exact hpair tail rfl rfl
      rw [unifyNewlines_return hhead]
      simpa using ih
    · rw [unifyNewlines_cons hc, List.mem_cons, not_or]
      exact ⟨Ne.symm hc, ih⟩

/-- A text that was read back is read back as it is. -/
@[simp]
theorem unifyNewlines_unifyNewlines (a : List Char) :
    unifyNewlines (unifyNewlines a) = unifyNewlines a :=
  unifyNewlines_of_not_mem (return_not_mem_unifyNewlines a)

/-- As many characters that are no line ends are read back as were stored. -/
theorem countP_unifyNewlines {p : Char → Bool} (hr : p '\r' = false) (hn : p '\n' = false)
    (a : List Char) : (unifyNewlines a).countP p = a.countP p := by
  induction a using unifyNewlines.induct with
  | case1 => rw [unifyNewlines_nil]
  | case2 cs ih => simp [hr, hn, ih]
  | case3 c cs hpair ih =>
    rw [unifyNewlines.eq_3 _ _ hpair]
    split
    · rename_i hc
      simp [hc, hr, hn, ih]
    · rw [List.countP_cons, List.countP_cons, ih]

end ClientGen.Text
