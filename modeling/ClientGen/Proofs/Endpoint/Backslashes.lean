import ClientGen.Proofs.Endpoint.Escapes

/-!
# Backslashes in paths

A backslash of a path makes less of the path than stands there. Nothing that parameters do to the
text makes up for it: in front of an insertion a template has a constant value, and dollar signs
that were put in front of a brace are the only characters that come from parameters there.

* `PathTemplate.Uniform`: up to the first insertion, the value does not depend on the values.
* `PathTemplate.not_evaluates_of_backslash_end`: a run with a backslash behind all placeholders.
* `PathTemplate.not_evaluates_of_backslash_hole`: a run with a backslash in front of a placeholder.
-/

namespace ClientGen

namespace PathTemplate

open TemplateLiteral Text

/-! ## Up to the first insertion -/

/-- In front of the first insertion, what a text comes to does not depend on the values. -/
structure Uniform (result : (String → String) → Option (List Nat)) : Prop where
  /-- A constant, and the value that is inserted behind it, if there is one. -/
  exists_constant : ∃ constant, (∀ values out, result values = some out → out = constant) ∨
    ∃ name, ∀ values out, result values = some out →
      ∃ more, out = constant ++ (Units.ofText (values name).toList ++ more)

section Uniform

variable {result : (String → String) → Option (List Nat)}

/-- A text without a value has none for all values of names. -/
theorem uniform_none : Uniform fun _ => none :=
  ⟨[], .inl fun _ _ hout => by cases hout⟩

/-- A uniform text stays so behind other units. -/
theorem Uniform.append (h : Uniform result) (units : List Nat) :
    Uniform fun values => (result values).map (units ++ ·) := by
  obtain ⟨constant, hconstant⟩ := h
  refine ⟨units ++ constant, hconstant.imp (fun hall values out hout => ?_) ?_⟩
  · obtain ⟨more, hmore, rfl⟩ := Option.map_eq_some_iff.mp hout
    rw [hall values more hmore]
  · rintro ⟨name, hname⟩
    refine ⟨name, fun values out hout => ?_⟩
    obtain ⟨more, hmore, rfl⟩ := Option.map_eq_some_iff.mp hout
    obtain ⟨later, rfl⟩ := hname values more hmore
    exact ⟨later, (List.append_assoc _ _ _).symm⟩

/-- What a text of the template comes to is uniform, wherever reading it starts. -/
theorem uniform_evaluateFrom (args : List String) (skip : Nat) (cs : List Char) :
    Uniform fun values => evaluateFrom (argumentValue? args values) skip cs := by
  induction cs generalizing skip with
  | nil =>
    refine ⟨[], .inl fun values out hout => ?_⟩
    cases skip <;> exact (Option.some.inj hout).symm
  | cons c cs ih =>
    cases skip with
    | succ skip => exact ih skip
    | zero =>
      simp only [evaluateFrom]
      split_ifs
      · exact uniform_none
      · cases escape? cs with
        | none => exact uniform_none
        | some p => exact (ih p.2).append p.1
      · -- The first insertion.
        refine ⟨[], .inr ⟨String.ofList (before '}' cs.tail), fun values out hout => ?_⟩⟩
        obtain ⟨units, hunits, hmore⟩ := Option.bind_eq_some_iff.mp hout
        obtain ⟨-, rfl⟩ := argumentValue?_eq_some_iff.mp hunits
        obtain ⟨more, -, rfl⟩ := Option.map_eq_some_iff.mp hmore
        exact ⟨more, rfl⟩
      · exact uniform_none
      all_goals exact (ih 0).append _

end Uniform

/-- Two texts that agree with different items behind the same front have the same front. -/
theorem front_unique {p q a a' b b' : List Nat} {m n : Nat} (hne : m ≠ n)
    (h : p ++ m :: a = q ++ m :: a') (h' : p ++ n :: b = q ++ n :: b') : p = q := by
  induction p generalizing q with
  | nil =>
    cases q with
    | nil => rfl
    | cons x q => exact absurd ((List.cons.inj h).1.trans (List.cons.inj h').1.symm) hne
  | cons x p ih =>
    cases q with
    | nil => exact absurd ((List.cons.inj h).1.symm.trans (List.cons.inj h').1) hne
    | cons y q =>
      obtain ⟨rfl, hrest⟩ := List.cons.inj h
      rw [ih hrest (List.cons.inj h').2]

/-- Where two texts agree whatever the value in the one is, they have insertions at one place. -/
theorem constant_eq {constant before : List Nat} {arg : String}
    {out more : (String → String) → List Nat}
    (hout : ∀ values, out values = before ++ (Units.ofText (values arg).toList ++ more values))
    (h : (∀ values, out values = constant) ∨ ∃ name, ∀ values, ∃ later,
      out values = constant ++ (Units.ofText (values name).toList ++ later)) :
    constant = before := by
  have ha : out (fun _ => "a") = before ++ 97 :: more fun _ => "a" := hout fun _ => "a"
  have hb : out (fun _ => "b") = before ++ 98 :: more fun _ => "b" := hout fun _ => "b"
  rcases h with hall | ⟨name, hname⟩
  · -- A text without insertions cannot follow the value.
    rw [hall] at ha hb
    have heq := List.append_cancel_left (ha.symm.trans hb)
    exact absurd (List.cons.inj heq).1 (by decide)
  · obtain ⟨later, hlater⟩ := hname fun _ => "a"
    obtain ⟨later', hlater'⟩ := hname fun _ => "b"
    exact front_unique (by decide) (show constant ++ 97 :: later = _ from hlater.symm.trans ha)
      (show constant ++ 98 :: later' = _ from hlater'.symm.trans hb)

/-! ## Runs with a backslash -/

section Backslash

variable {S Z : List Char} {args : List String} {arg : String}
  {more : (String → String) → List Nat} {units : List Nat}

/-- The unit of an ASCII character belongs to no other character: halves of pairs are larger. -/
theorem eq_of_mem_ofChar {c d : Char} (h : d.toNat ∈ Units.ofChar c) (hd : d.toNat < 128) :
    c = d := by
  rw [Units.ofChar] at h
  split at h
  · exact (Char.toNat_inj.mp (List.mem_singleton.mp h)).symm
  · simp only [Surrogate.halves, List.mem_cons, List.not_mem_nil, or_false] at h
    omega

/-- A text has at most as many units of opening braces as it has opening braces. -/
theorem count_ofText_le (cs : List Char) : (Units.ofText cs).count 123 ≤ cs.count '{' := by
  induction cs with
  | nil => exact le_rfl
  | cons c cs ih =>
    have hc : (Units.ofChar c).count 123 ≤ [c].count '{' := by
      by_cases hbrace : c = '{'
      · rw [hbrace]
        decide
      · have hcount : (Units.ofChar c).count '{'.toNat = 0 :=
          List.count_eq_zero.mpr fun hmem => hbrace (eq_of_mem_ofChar hmem (by decide))
        exact hcount.le.trans (Nat.zero_le _)
    rw [Units.ofText_cons, List.count_append, ← List.singleton_append, List.count_append]
    omega

/-- Only a dollar sign ends with the unit of one. -/
theorem getLast?_eq_dollar (h : (Units.ofText S).getLast? = some 36) : S.getLast? = some '$' := by
  rcases List.eq_nil_or_concat S with rfl | ⟨S, c, rfl⟩
  · cases h
  · rw [List.concat_eq_append] at h ⊢
    have htext : Units.ofText (S ++ [c]) = Units.ofText S ++ Units.ofChar c := by
      simp [Units.ofText]
    rw [htext, List.getLast?_append_of_ne_nil _ (Units.ofChar_ne_nil c)] at h
    have hdollar : '$'.toNat ∈ Units.ofChar c := List.mem_of_getLast? h
    rw [List.getLast?_concat, eq_of_mem_ofChar hdollar (by decide)]

/-- The dollar signs at the end of a text can be split off. -/
theorem exists_dollars (S : List Char) :
    ∃ A r, S = A ++ List.replicate r '$' ∧ A.getLast? ≠ some '$' := by
  induction S using List.reverseRecOn with
  | nil => exact ⟨[], 0, rfl, by simp⟩
  | append_singleton S c ih =>
    by_cases hc : c = '$'
    · obtain ⟨A, r, rfl, hA⟩ := ih
      exact ⟨A, r + 1, by rw [hc, List.replicate_succ', List.append_assoc], hA⟩
    · exact ⟨S ++ [c], 0, by simp, by simpa using hc⟩

theorem plainText_dollars (r : Nat) :
    plainText (List.replicate r '$') = List.replicate r '$' := by
  induction r with
  | zero => rfl
  | succ r ih =>
    rw [List.replicate_succ, plainText_cons, ih]
    rfl

/-- Dollar signs in front of a brace are what can come behind a run of characters. -/
theorem opens_dollars (k : Nat) (Z : List Char) : Opens (List.replicate k '$' ++ '{' :: Z) := by
  intro c hc
  cases k with
  | zero => exact .inr (Option.some.inj hc).symm
  | succ k => exact .inl (Option.some.inj hc).symm

/-- A brace that is no insertion comes to itself, and the text behind it has a value. -/
theorem exists_of_evaluate_brace {v : String → Option (List Nat)} {out : List Nat}
    (h : TemplateLiteral.evaluate v ('{' :: Z) = some out) :
    ∃ later, TemplateLiteral.evaluate v Z = some later ∧ out = 123 :: later :=
  exists_of_evaluate_cons (by decide) (fun hc => absurd hc (by decide)) h

/-- Only the last of some dollar signs belongs to an insertion. -/
theorem exists_of_evaluate_dollars {v : String → Option (List Nat)} {out : List Nat} {j : Nat}
    (h : TemplateLiteral.evaluate v (List.replicate (j + 1) '$' ++ '{' :: Z) = some out) :
    ∃ later, TemplateLiteral.evaluate v ('$' :: '{' :: Z) = some later ∧
      out = List.replicate j 36 ++ later := by
  induction j generalizing out with
  | zero => exact ⟨out, h, rfl⟩
  | succ j ih =>
    change TemplateLiteral.evaluate v ('$' :: (List.replicate (j + 1) '$' ++ '{' :: Z)) = _ at h
    obtain ⟨more, hmore, rfl⟩ :=
      exists_of_evaluate_cons (by decide) (fun _ => by simp [List.replicate_succ]) h
    obtain ⟨later, hlater, rfl⟩ := ih hmore
    exact ⟨later, hlater, rfl⟩

/-- A run with a backslash never comes to itself in front of nothing. -/
theorem not_evaluates_of_backslash_end {v : String → Option (List Nat)} (hv : v "" = none)
    (hS : '\\' ∈ S) (hdead : Dead [] S) :
    TemplateLiteral.evaluate v (plainText S) ≠ some (Units.ofText S) := by
  intro h
  have hW : Opens [] := by simp [Opens]
  rw [← List.append_nil (plainText S)] at h
  obtain ⟨units, hkept⟩ := exists_kept hW (by simp) hdead (by simp) hv h
  rcases hkept.evaluates with hall | ⟨c, W', hnil, -⟩
  · obtain ⟨more, hmore, hout⟩ := hall v _ hv h
    obtain rfl : [] = more := Option.some.inj hmore
    rw [List.append_nil] at hout
    exact absurd (hkept.length_lt hS) (by rw [hout]; exact lt_irrefl _)
  · cases hnil

/-- What comes behind the run of characters in front of a placeholder: another brace, or only dollar
signs in front of the insertion. -/
theorem braces_or_dollars {A : List Char} {k : Nat} {out : (String → String) → List Nat}
    (hkept : Kept A (List.replicate k '$' ++ '{' :: Z) units)
    (h : ∀ values, TemplateLiteral.evaluate (argumentValue? args values)
      (plainText A ++ (List.replicate k '$' ++ '{' :: Z)) = some (out values)) :
    (∃ constant, 123 ∈ constant ∧ ∀ values, ∃ later,
      TemplateLiteral.evaluate (argumentValue? args values) Z = some later ∧
        out values = units ++ constant ++ later) ∨
      ∃ j, k = j + 1 ∧ ∀ values, ∃ later,
        TemplateLiteral.evaluate (argumentValue? args values) ('$' :: '{' :: Z) = some later ∧
          out values = units ++ List.replicate j 36 ++ later := by
  have hnone : ∀ values, argumentValue? args values "" = none := fun _ => rfl
  rcases hkept.evaluates with hall | ⟨c, W', hW, hall⟩
  · have hclean := fun values => hall _ _ (hnone values) (h values)
    match k with
    | 0 =>
      refine .inl ⟨[123], List.mem_singleton_self _, fun values => ?_⟩
      obtain ⟨later, hlater, heq⟩ := hclean values
      obtain ⟨last, hlast, rfl⟩ := exists_of_evaluate_brace hlater
      exact ⟨last, hlast, by rw [heq, List.append_assoc]; rfl⟩
    | j + 1 =>
      refine .inr ⟨j, rfl, fun values => ?_⟩
      obtain ⟨later, hlater, heq⟩ := hclean values
      obtain ⟨last, hlast, rfl⟩ := exists_of_evaluate_dollars hlater
      exact ⟨last, hlast, by rw [heq, List.append_assoc]⟩
  · -- An escape has taken the first character.
    have hbehind := fun values => hall _ _ (hnone values) (h values)
    match k with
    | 0 =>
      obtain ⟨rfl, rfl⟩ := List.cons.inj hW
      exact .inl ⟨[123], List.mem_singleton_self _, hbehind⟩
    | 1 =>
      obtain ⟨rfl, rfl⟩ := List.cons.inj hW
      refine .inl ⟨[36, 123], by decide, fun values => ?_⟩
      obtain ⟨later, hlater, heq⟩ := hbehind values
      obtain ⟨last, hlast, rfl⟩ := exists_of_evaluate_brace hlater
      exact ⟨last, hlast, by rw [heq]; simp [Units.ofChar]⟩
    | j + 2 =>
      obtain ⟨rfl, rfl⟩ := List.cons.inj hW
      refine .inr ⟨j + 1, rfl, fun values => ?_⟩
      obtain ⟨later, hlater, heq⟩ := hbehind values
      obtain ⟨last, hlast, rfl⟩ := exists_of_evaluate_dollars hlater
      exact ⟨last, hlast, by rw [heq, List.replicate_succ]; simp [Units.ofChar]⟩

theorem ofText_dollars (r : Nat) :
    Units.ofText (List.replicate r '$') = List.replicate r 36 := by
  induction r with
  | zero => rfl
  | succ r ih =>
    rw [List.replicate_succ, Units.ofText_cons, ih]
    rfl

/-- Dollar signs do not make up for what is lost. -/
theorem Kept.ne_dollars {A W : List Char} {r m j : Nat} (hkept : Kept A W units) (hA : '\\' ∈ A)
    (hlast : A.getLast? ≠ some '$') (hj : r + m = j + 1) :
    units ++ List.replicate j 36 ≠ Units.ofText A ++ List.replicate r 36 := by
  intro heq
  have hlength := congrArg List.length heq
  simp only [List.length_append, List.length_replicate] at hlength
  have hlt := hkept.length_lt hA
  -- One dollar sign belongs to the insertion, so at least one too many is in front of it.
  obtain ⟨d, rfl⟩ : ∃ d, j = d + 1 + r := ⟨j - 1 - r, by omega⟩
  rw [List.replicate_add, ← List.append_assoc] at heq
  have hunits := List.append_cancel_right heq
  refine hlast (getLast?_eq_dollar ?_)
  rw [← hunits, List.replicate_succ', ← List.append_assoc, List.getLast?_concat]

/-- A brace that is left too much in front of what is inserted. -/
theorem Kept.ne_of_brace {A W : List Char} {constant : List Nat} {r : Nat}
    (hkept : Kept A W units) (hconstant : 123 ∈ constant) (later : List Nat) :
    units ++ constant ++ later ≠ Units.ofText (A ++ List.replicate r '$') := by
  intro heq
  have hcount := count_ofText_le (A ++ List.replicate r '$')
  have hdollars : (List.replicate r '$').count '{' = 0 := by simp [List.count_replicate]
  have hpos := List.count_pos_iff.mpr hconstant
  have hle := hkept.count_le
  rw [← heq, List.count_append, List.count_append, List.count_append, hdollars] at hcount
  omega

/-- A run with a backslash never comes to itself in front of a placeholder. -/
theorem not_evaluates_of_backslash_hole {m : Nat} (hS : '\\' ∈ S)
    (hdead : Dead (List.replicate m '$' ++ '{' :: Z) S) (hbrace : m = 0 → braceEscape? Z = none) :
    ¬ ∀ values, TemplateLiteral.evaluate (argumentValue? args values)
      (plainText S ++ (List.replicate m '$' ++ '{' :: Z))
        = some (Units.ofText S ++ (Units.ofText (values arg).toList ++ more values)) := by
  intro h
  -- The dollar signs at the end of the run count with those that were put behind it.
  obtain ⟨A, r, rfl, hlast⟩ := exists_dollars S
  have hA : '\\' ∈ A := by simpa using hS
  have hbehind : plainText (List.replicate r '$') ++ (List.replicate m '$' ++ '{' :: Z)
      = List.replicate (r + m) '$' ++ '{' :: Z := by
    rw [plainText_dollars, List.replicate_add, List.append_assoc]
  simp only [plainText_append, List.append_assoc, hbehind] at h
  have hdeadA := (dead_append.mp hdead).1
  rw [hbehind] at hdeadA
  have hopened : (List.replicate (r + m) '$' ++ '{' :: Z).head? = some '{' →
      braceEscape? (List.replicate (r + m) '$' ++ '{' :: Z).tail = none := by
    cases hk : r + m with
    | zero => exact fun _ => hbrace (by omega)
    | succ k => simp [List.replicate_succ]
  obtain ⟨out, hout⟩ : ∃ out : (String → String) → List Nat, ∀ values, out values
      = Units.ofText (A ++ List.replicate r '$') ++ (Units.ofText (values arg).toList
        ++ more values) := ⟨_, fun _ => rfl⟩
  simp only [← hout] at h
  obtain ⟨units, hkept⟩ := exists_kept (opens_dollars _ Z) hopened hdeadA
    (fun h => absurd h hlast) rfl (h fun _ => "")
  have htext : Units.ofText (A ++ List.replicate r '$')
      = Units.ofText A ++ List.replicate r 36 := by
    rw [← ofText_dollars, Units.ofText, List.flatMap_append]
    rfl
  rcases braces_or_dollars hkept h with ⟨constant, hconstant, hall⟩ | ⟨j, hj, hall⟩
  · -- Up to the next insertion, there are more braces in the value than in the run.
    obtain ⟨later, hlater⟩ := (uniform_evaluateFrom args 0 Z).exists_constant
    refine hkept.ne_of_brace hconstant later (constant_eq hout ?_)
    refine hlater.imp (fun hsame values => ?_) ?_
    · obtain ⟨out, hout, heq⟩ := hall values
      rw [← hsame values out hout]
      exact heq
    · rintro ⟨name, hname⟩
      refine ⟨name, fun values => ?_⟩
      obtain ⟨out, hout, heq⟩ := hall values
      obtain ⟨last, rfl⟩ := hname values out hout
      exact ⟨last, by rw [heq]; simp⟩
  · -- The insertion comes behind what is left of the run and some dollar signs.
    refine hkept.ne_dollars hA hlast hj ?_
    rw [← htext]
    refine constant_eq hout (.inr ⟨String.ofList (before '}' Z), fun values => ?_⟩)
    obtain ⟨out, hout, heq⟩ := hall values
    obtain ⟨units', last, hunits', rfl⟩ := exists_of_evaluate_insertion hout
    obtain ⟨-, rfl⟩ := argumentValue?_eq_some_iff.mp hunits'
    exact ⟨last, heq⟩

end Backslash

end PathTemplate

end ClientGen
