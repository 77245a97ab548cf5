import ClientGen.Text.Replace

/-!
# Replacement step by step

What replacing every occurrence of a word does at the start of a text.

* `Text.replace_cons`: a character at which the word does not start stays.
* `Text.replace_append`: an occurrence of the word gives way.
-/

namespace ClientGen.Text

/-- Replacing may start anywhere behind a number of characters. -/
theorem replaceSkipping_eq_drop (old new : List Char) (skip : Nat) (cs : List Char) :
    replaceSkipping old new skip cs = replaceSkipping old new 0 (cs.drop skip) := by
  induction cs generalizing skip with
  | nil => cases skip <;> rfl
  | cons c cs ih =>
    cases skip with
    | zero => rfl
    | succ skip => exact ih skip

/-- A character at which the old text does not begin stays as it is. -/
theorem replace_cons {old : List Char} {c : Char} {cs : List Char}
    (h : startsWith old (c :: cs) = false) (new : List Char) :
    replace old new (c :: cs) = c :: replace old new cs := by
  rw [replace, replaceSkipping, h, if_neg Bool.false_ne_true]
  rfl

/-- No word starts at a character other than its first. -/
theorem startsWith_cons_of_ne {c d : Char} (h : c ≠ d) (old cs : List Char) :
    startsWith (c :: old) (d :: cs) = false := by
  rw [startsWith, List.isPrefixOf_cons_cons, beq_false_of_ne h, Bool.false_and]

/-- The old text in front becomes the new one. -/
theorem replace_append (c : Char) (old new cs : List Char) :
    replace (c :: old) new (c :: old ++ cs) = new ++ replace (c :: old) new cs := by
  have hstart : startsWith (c :: old) (c :: (old ++ cs)) = true :=
    List.isPrefixOf_iff_prefix.mpr (List.prefix_append _ _)
  rw [List.cons_append, replace, replaceSkipping, if_pos hstart, replaceSkipping_eq_drop,
    List.length_cons, Nat.add_sub_cancel, List.drop_left, replace]

end ClientGen.Text
