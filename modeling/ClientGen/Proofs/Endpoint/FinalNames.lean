import ClientGen.Proofs.Endpoint.Names

/-!
# Final names

Which name an entry of a tag ends up with. It depends on the final names of the entries before it
alone, so that an entry that was renamed can drive a later one from its own name.

* `Endpoint.EndsUp`: the rule for one entry, and `Endpoint.endsUp_finalName`: the final name follows
  it.
* `Endpoint.distinctNames_endsUp`: all entries of a tag follow the rule, and no two of them end up
  with the same name.
-/

namespace ClientGen.Endpoint

variable {taken : List String} {base name httpMethod : String} {entries : List (String × String)}

/-- A name that goes on with the HTTP method. -/
def withMethod (name httpMethod : String) : String := name ++ Naming.capitalizeWord httpMethod

/-- The name that an entry ends up with, if the entries before it have ended up with `earlier`. -/
inductive EndsUp (earlier : List String) (name httpMethod : String) : String → Prop where
  /-- A free name is kept. -/
  | kept (hfree : name ∉ earlier) : EndsUp earlier name httpMethod name
  /-- A name that is taken goes on with the HTTP method. -/
  | continued (htaken : name ∈ earlier) (hfree : withMethod name httpMethod ∉ earlier) :
    EndsUp earlier name httpMethod (withMethod name httpMethod)
  /-- If that is taken too, a number follows: the smallest one from 2 on that makes a free name. It
  is at most one more than there are names. -/
  | numbered (n : Nat) (htaken : name ∈ earlier) (htaken' : withMethod name httpMethod ∈ earlier)
    (hrange : 2 ≤ n ∧ n ≤ earlier.length + 1)
    (hfree : withMethod name httpMethod ++ toString n ∉ earlier)
    (hleast : ∀ m, 2 ≤ m → m < n → withMethod name httpMethod ++ toString m ∈ earlier) :
    EndsUp earlier name httpMethod (withMethod name httpMethod ++ toString n)

/-! ## One entry -/

/-- A base that is free needs no number. -/
theorem freeName_of_not_mem (h : base ∉ taken) : freeName taken base = base := by
  unfold freeName
  dsimp only
  rw [List.find?_cons_of_pos (by simpa using h)]
  rfl

/-- A base that is taken gets the smallest number that makes a free name. -/
theorem exists_freeName_of_mem (h : base ∈ taken) :
    ∃ n, freeName taken base = base ++ toString n ∧ 2 ≤ n ∧
      ∀ m, 2 ≤ m → m < n → base ++ toString m ∈ taken := by
  have hfree := freeName_not_mem taken base
  unfold freeName at hfree ⊢
  dsimp only at hfree ⊢
  rw [List.find?_cons_of_neg (by simpa using h), List.find?_map] at hfree ⊢
  cases hfound : (List.range (taken.length + 1)).find?
      ((fun name => !taken.contains name) ∘ fun i => base ++ toString (i + 2)) with
  | none =>
    -- The search does not fail: it would leave the base, and this is taken.
    rw [hfound] at hfree
    exact absurd h hfree
  | some i =>
    obtain ⟨-, -, hbefore⟩ := List.find?_range_eq_some.mp hfound
    refine ⟨i + 2, rfl, by omega, fun m hm hlt => ?_⟩
    obtain ⟨j, rfl⟩ : ∃ j, m = j + 2 := ⟨m - 2, by omega⟩
    simpa using hbefore j (by omega)

/-- There are no more numbers that make names which are taken than there are such names. -/
theorem le_length_of_taken {n : Nat} (h : base ∈ taken)
    (hbefore : ∀ m, 2 ≤ m → m < n → base ++ toString m ∈ taken) : n ≤ taken.length + 1 := by
  by_contra hlong
  have hpos : 0 < taken.length := List.length_pos_of_mem h
  -- The base and the numbers below `n` make distinct names; all are taken, and they are too many.
  have hsubset : candidates taken.tail base ⊆ taken := by
    refine List.cons_subset.mpr ⟨h, fun name hname => ?_⟩
    obtain ⟨i, hi, rfl⟩ := List.mem_map.mp hname
    rw [List.mem_range, List.length_tail] at hi
    exact hbefore (i + 2) (by omega) (by omega)
  have hlength := ((nodup_candidates taken.tail base).subperm hsubset).length_le
  simp only [candidates, List.length_cons, List.length_map, List.length_range,
    List.length_tail] at hlength
  omega

theorem finalName_of_not_mem (h : name ∉ taken) : finalName taken name httpMethod = name :=
  if_neg (by simpa using h)

theorem finalName_of_mem (h : name ∈ taken) :
    finalName taken name httpMethod = freeName taken (withMethod name httpMethod) :=
  if_pos (by simpa using h)

theorem endsUp_finalName (taken : List String) (name httpMethod : String) :
    EndsUp taken name httpMethod (finalName taken name httpMethod) := by
  by_cases htaken : name ∈ taken
  · rw [finalName_of_mem htaken]
    by_cases htaken' : withMethod name httpMethod ∈ taken
    · obtain ⟨n, hname, htwo, hbefore⟩ := exists_freeName_of_mem htaken'
      have hfree := freeName_not_mem taken (withMethod name httpMethod)
      rw [hname] at hfree ⊢
      exact .numbered n htaken htaken' ⟨htwo, le_length_of_taken htaken' hbefore⟩ hfree hbefore
    · rw [freeName_of_not_mem htaken']
      exact .continued htaken htaken'
  · rw [finalName_of_not_mem htaken]
    exact .kept htaken

/-- A name is kept exactly if it is free. -/
theorem finalName_eq_self_iff : finalName taken name httpMethod = name ↔ name ∉ taken := by
  refine ⟨fun hkept => ?_, finalName_of_not_mem⟩
  have hfree := finalName_not_mem taken name httpMethod
  rwa [hkept] at hfree

/-! ## All entries -/

/-- The final name of an entry depends on those of the entries before it, and on the names that were
taken from the start. -/
theorem getElem?_distinctNamesFrom {i : Nat} (h : entries[i]? = some (name, httpMethod)) :
    (distinctNamesFrom taken entries)[i]?
      = some (finalName (taken ++ (distinctNamesFrom taken entries).take i) name httpMethod) := by
  induction entries generalizing taken i with
  | nil => simp at h
  | cons entry rest ih =>
    rw [distinctNamesFrom]
    cases i with
    | zero =>
      obtain rfl : entry = (name, httpMethod) := by simpa using h
      simp
    | succ i =>
      rw [List.getElem?_cons_succ] at h ⊢
      rw [List.take_succ_cons, ih h, List.append_assoc, List.singleton_append]

/-- The entries of a tag, however many they are, end up with distinct names, each by the rule: a
name is kept exactly if no entry before ended up with it, and otherwise goes on with the HTTP
method, and with the smallest number that makes it distinct only if that is needed. -/
theorem distinctNames_endsUp (entries : List (String × String)) :
    (distinctNames entries).length = entries.length ∧ (distinctNames entries).Nodup ∧
      ∀ i name httpMethod, entries[i]? = some (name, httpMethod) →
        ∃ final, (distinctNames entries)[i]? = some final ∧
          (final = name ↔ name ∉ (distinctNames entries).take i) ∧
          EndsUp ((distinctNames entries).take i) name httpMethod final := by
  refine ⟨length_distinctNamesFrom [] entries, nodup_distinctNames entries, ?_⟩
  intro i name httpMethod hentry
  refine ⟨_, getElem?_distinctNamesFrom hentry, ?_, ?_⟩
  · exact finalName_eq_self_iff
  · exact endsUp_finalName _ name httpMethod

/-- An entry that was renamed takes the name of a later one, and the last entry needs a number. -/
theorem distinctNames_endsUp_renamed :
    let entries := [("getX", "get"), ("getX", "post"), ("getXPost", "get"), ("getX", "post")]
    distinctNames entries = ["getX", "getXPost", "getXPostGet", "getXPost2"] ∧
      entries[3]? = some ("getX", "post") ∧
      ∃ final, (distinctNames entries)[3]? = some final ∧
        (final = "getX" ↔ "getX" ∉ (distinctNames entries).take 3) ∧
        EndsUp ((distinctNames entries).take 3) "getX" "post" final := by
  intro entries
  have hentry : entries[3]? = some ("getX", "post") := rfl
  exact ⟨by decide +kernel, hentry, (distinctNames_endsUp entries).2.2 3 "getX" "post" hentry⟩

end ClientGen.Endpoint
