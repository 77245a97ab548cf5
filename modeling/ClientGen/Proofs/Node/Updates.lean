import Mathlib.Data.List.Induction
import ClientGen.Node.Basic

/-!
# Updates of objects

What an object holds after its members were set one after another, and in which order.

* `keepFirst`: what is like something that was kept before is not kept.
* `Fields.keys_update`: every key stands where it came first.
* `Fields.value?_update`: under every key is the value that came last.
* `Fields.update_ofList`: members that are to be set may be gathered in an object first.
-/

namespace ClientGen

/-! ## Keeping what comes first -/

section KeepFirst

variable {α : Type} (same : α → α → Bool)

/-- Adds an item at the end, if nothing like it is there. -/
def keepFirst (kept : List α) (x : α) : List α :=
  if kept.any (same · x) then kept else kept ++ [x]

/-- Behind what was kept before comes each further item where it is first. -/
theorem foldl_keepFirst (hcomm : ∀ a b, same a b = same b a) (kept xs : List α) :
    xs.foldl (keepFirst same) kept
      = kept ++ (xs.filter fun x => !kept.any (same · x)).eraseDupsBy same := by
  induction xs generalizing kept with
  | nil => simp
  | cons x xs ih =>
    rw [List.foldl_cons, ih]
    unfold keepFirst
    split
    · rename_i hmem
      simp [hmem]
    · -- What is kept next to `x` is what is neither like the kept ones nor like `x`.
      rename_i hnew
      have hboth : (xs.filter fun y => !(kept ++ [x]).any (same · y))
          = (xs.filter fun y => !kept.any (same · y)).filter fun y => same y x = false := by
        rw [List.filter_filter]
        refine List.filter_congr fun y _ => ?_
        simp [hcomm x y, Bool.and_comm]
      rw [List.filter_cons, if_pos (by simpa using hnew), List.eraseDupsBy_cons, hboth,
        List.append_assoc, List.singleton_append]

/-- Adding items one by one, each if nothing like it is there, leaves the first of those that are
alike. -/
theorem foldl_keepFirst_nil (hcomm : ∀ a b, same a b = same b a) (xs : List α) :
    xs.foldl (keepFirst same) [] = xs.eraseDupsBy same := by
  rw [foldl_keepFirst same hcomm, List.nil_append]
  exact congrArg _ (List.filter_eq_self.mpr fun _ _ => rfl)

/-- What is like an item that is kept is like one of what remains. -/
theorem any_foldl_keepFirst (htrans : ∀ a b c, same a b → same b c → same a c)
    (kept xs : List α) (y : α) :
    (xs.foldl (keepFirst same) kept).any (same · y)
      = (kept.any (same · y) || xs.any (same · y)) := by
  induction xs generalizing kept with
  | nil => simp
  | cons x xs ih =>
    rw [List.foldl_cons, ih, List.any_cons]
    unfold keepFirst
    split
    · -- Something like the item was there, so the item adds nothing.
      rename_i hmem
      obtain ⟨z, hz, hzx⟩ := List.any_eq_true.mp hmem
      cases hxy : same x y with
      | false => simp
      | true =>
        have hany : kept.any (same · y) = true :=
          List.any_eq_true.mpr ⟨z, hz, htrans z x y hzx hxy⟩
        simp [hany]
    · simp [Bool.or_assoc]

/-- Items may be kept among themselves first. -/
theorem foldl_keepFirst_foldl (htrans : ∀ a b c, same a b → same b c → same a c)
    (kept xs : List α) :
    (xs.foldl (keepFirst same) []).foldl (keepFirst same) kept
      = xs.foldl (keepFirst same) kept := by
  induction xs using List.reverseRecOn with
  | nil => rfl
  | append_singleton xs x ih =>
    rw [List.foldl_append, List.foldl_append, List.foldl_cons, List.foldl_nil, List.foldl_cons,
      List.foldl_nil, ← ih]
    generalize hzs : xs.foldl (keepFirst same) [] = zs
    by_cases hmem : zs.any (same · x)
    · have hall : (zs.foldl (keepFirst same) kept).any (same · x) = true := by
        rw [any_foldl_keepFirst same htrans, hmem, Bool.or_true]
      rw [keepFirst, if_pos hmem, keepFirst, if_pos hall]
    · rw [keepFirst, if_neg hmem, List.foldl_append, List.foldl_cons, List.foldl_nil]

end KeepFirst

section EraseDups

variable {α : Type} [BEq α] [LawfulBEq α]

/-- What comes last is kept if it is new. -/
theorem eraseDups_concat (xs : List α) (x : α) :
    (xs ++ [x]).eraseDups = if xs.contains x then xs.eraseDups else xs.eraseDups ++ [x] := by
  rw [List.eraseDups_append, List.removeAll, List.filter_cons]
  by_cases hmem : x ∈ xs
  · simp [hmem]
  · simp [hmem, List.eraseDups_cons]

/-- A list without its repetitions repeats nothing. -/
theorem nodup_eraseDups (xs : List α) : xs.eraseDups.Nodup := by
  induction xs using List.reverseRecOn with
  | nil => exact List.nodup_nil
  | append_singleton xs x ih =>
    rw [eraseDups_concat]
    split
    · exact ih
    · rename_i hnew
      refine List.nodup_append.mpr ⟨ih, List.pairwise_singleton _ x, fun a ha b hb => ?_⟩
      obtain rfl := List.mem_singleton.mp hb
      rintro rfl
      exact hnew (List.contains_iff_mem.mpr (List.mem_eraseDups.mp ha))

end EraseDups

/-! ## Keys that name the same member -/

namespace Key

/-- Two keys name the same member exactly if they have one canonical form. -/
theorem same_iff {a b : Key} : a.same b = true ↔ a.canonical = b.canonical := by
  simp [same]

/-- A key names the same member as itself. -/
theorem same_self (a : Key) : a.same a = true := same_iff.mpr rfl

/-- Naming the same member does not depend on the order of two keys. -/
theorem same_comm (a b : Key) : a.same b = b.same a := by
  rw [Bool.eq_iff_iff, same_iff, same_iff]
  exact eq_comm

/-- Of three keys of which the first two and the last two name the same member, the outer ones
do. -/
theorem same_trans (a b c : Key) (hab : a.same b = true) (hbc : b.same c = true) :
    a.same c = true :=
  same_iff.mpr ((same_iff.mp hab).trans (same_iff.mp hbc))

/-- A key names the same member as another one wherever a key that is like it does. -/
theorem same_congr {a b : Key} (h : a.same b = true) (c : Key) : a.same c = b.same c := by
  rw [Bool.eq_iff_iff, same_iff, same_iff, same_iff.mp h]

end Key

namespace Fields

variable {fields fields' : Fields}

/-! ## Keys and values after an update -/

/-- The keys of an object, in order. -/
def keys (fields : Fields) : List Key := fields.map (·.1)

@[simp]
theorem keys_nil : keys [] = [] := rfl

@[simp]
theorem keys_cons (field : Key × Node) (rest : Fields) :
    keys (field :: rest) = field.1 :: keys rest := rfl

@[simp]
theorem value?_nil (k : Key) : value? [] k = none := rfl

/-- The first member decides, if its key is the wanted one; otherwise the others do. -/
theorem value?_cons (field : Key × Node) (rest : Fields) (k : Key) :
    value? (field :: rest) k = if field.1.same k then some field.2 else value? rest k := by
  rw [value?, List.find?_cons]
  split <;> simp_all [value?]

/-- Two keys that name the same member have the same value under them. -/
theorem value?_congr {key key' : Key} (h : key.same key' = true) (fields : Fields) :
    value? fields key = value? fields key' := by
  induction fields with
  | nil => rfl
  | cons field rest ih =>
    rw [value?_cons, value?_cons, ih, Key.same_comm, Key.same_congr h, Key.same_comm]

/-- An object under no key of which there is anything has no members. -/
theorem eq_nil_of_value? (h : ∀ key, value? fields key = none) : fields = [] := by
  cases fields with
  | nil => rfl
  | cons field rest =>
    have hfirst := h field.1
    rw [value?_cons, if_pos (Key.same_self _)] at hfirst
    cases hfirst

/-- In two runs of members, the first run decides if it has the key. -/
theorem value?_append (fields fields' : Fields) (k : Key) :
    value? (fields ++ fields') k = (value? fields k).or (value? fields' k) := by
  rw [value?, List.find?_append, Option.map_or, value?, value?]

/-- Setting a member adds its key at the end, unless there is one that names the same member. -/
theorem keys_put (fields : Fields) (key : Key) (value : Node) :
    (put fields key value).keys = keepFirst Key.same fields.keys key := by
  induction fields with
  | nil => rfl
  | cons field rest ih =>
    rw [put, keepFirst, keys_cons, List.any_cons]
    by_cases hsame : field.1.same key = true
    · rw [if_pos hsame, if_pos (by simp [hsame]), keys_cons]
    · rw [if_neg hsame, keys_cons, ih, keepFirst, Bool.eq_false_iff.mpr hsame, Bool.false_or]
      split <;> rfl

/-- Every key stands where it came first. -/
theorem keys_update (fields additions : Fields) :
    (update fields additions).keys = additions.keys.foldl (keepFirst Key.same) fields.keys := by
  induction additions generalizing fields with
  | nil => rfl
  | cons addition rest ih =>
    rw [update, List.foldl_cons, ← update, ih, keys_put, keys_cons, List.foldl_cons]

/-- After a member is set, its key has the value, and all others have theirs. -/
theorem value?_put (fields : Fields) (key : Key) (value : Node) (k : Key) :
    (put fields key value).value? k = if key.same k then some value else fields.value? k := by
  induction fields with
  | nil => rw [put, value?_cons]
  | cons field rest ih =>
    rw [put]
    by_cases hsame : field.1.same key = true
    · -- The member is found under just the keys under which it was found before.
      rw [if_pos hsame, value?_cons, value?_cons, Key.same_congr hsame k]
      split <;> rfl
    · rw [if_neg hsame, value?_cons, value?_cons, ih]
      by_cases hk : field.1.same k = true
      · have hother : key.same k ≠ true := fun h =>
          hsame (Key.same_trans _ _ _ hk (Key.same_comm key k ▸ h))
        rw [if_pos hk, if_pos hk, if_neg hother]
      · rw [if_neg hk, if_neg hk]

/-- Under every key is the value that came last. -/
theorem value?_update (fields additions : Fields) (k : Key) :
    (update fields additions).value? k
      = (value? additions.reverse k).or (fields.value? k) := by
  induction additions generalizing fields with
  | nil => rfl
  | cons addition rest ih =>
    rw [update, List.foldl_cons, ← update, ih, value?_put, List.reverse_cons, value?_append,
      Option.or_assoc, value?_cons, value?_nil]
    split <;> rfl

/-! ## Objects in which no key comes twice -/

/-- No two keys name the same member. -/
def Distinct (fields : Fields) : Prop := fields.keys.Pairwise fun a b => a.same b = false

theorem distinct_nil : Distinct [] := .nil

/-- Setting a member leaves the keys distinct. -/
theorem Distinct.put (h : Distinct fields) (key : Key) (value : Node) :
    Distinct (fields.put key value) := by
  rw [Distinct, keys_put, keepFirst]
  split
  · exact h
  · rename_i hnew
    refine List.pairwise_append.mpr ⟨h, List.pairwise_singleton _ _, fun a ha b hb => ?_⟩
    obtain rfl := List.mem_singleton.mp hb
    exact Bool.eq_false_iff.mpr fun hsame => hnew (List.any_eq_true.mpr ⟨a, ha, hsame⟩)

/-- Updating an object leaves its keys distinct. -/
theorem Distinct.update (h : Distinct fields) (additions : Fields) :
    Distinct (fields.update additions) := by
  induction additions generalizing fields with
  | nil => exact h
  | cons addition rest ih => exact ih (h.put _ _)

/-- An object made from a list of members has distinct keys. -/
theorem distinct_ofList (members : Fields) : Distinct (ofList members) :=
  distinct_nil.update members

/-- Nothing is found under a key that is not there. -/
theorem value?_eq_none_of_forall {k : Key} (h : ∀ k' ∈ fields.keys, k'.same k = false) :
    fields.value? k = none := by
  induction fields with
  | nil => rfl
  | cons field rest ih =>
    rw [keys_cons, List.forall_mem_cons] at h
    rw [value?_cons, h.1, if_neg Bool.false_ne_true, ih h.2]

/-- What the first member names, no further member does. -/
theorem Distinct.value?_tail {field : Key × Node} {rest : Fields} (h : Distinct (field :: rest))
    {k : Key} (hk : field.1.same k = true) : value? rest k = none := by
  refine value?_eq_none_of_forall fun k' hk' => ?_
  rw [Key.same_comm, ← Key.same_congr hk]
  exact (List.pairwise_cons.mp h).1 k' hk'

/-- Every member is found under its key. -/
theorem Distinct.value?_of_mem (h : Distinct fields) {k : Key} {value : Node}
    (hmem : (k, value) ∈ fields) : fields.value? k = some value := by
  induction fields with
  | nil => cases hmem
  | cons field rest ih =>
    obtain ⟨hfirst, hrest⟩ := List.pairwise_cons.mp h
    rcases List.mem_cons.mp hmem with rfl | hmem
    · rw [value?_cons, if_pos (Key.same_self k)]
    · have hother := hfirst k (List.mem_map_of_mem hmem)
      rw [value?_cons, hother, if_neg Bool.false_ne_true, ih hrest hmem]

/-- Which value is found under a key does not depend on the order of the members. -/
theorem Distinct.value?_reverse (h : Distinct fields) (k : Key) :
    value? fields.reverse k = fields.value? k := by
  induction fields with
  | nil => rfl
  | cons field rest ih =>
    rw [List.reverse_cons, value?_append, ih (List.pairwise_cons.mp h).2, value?_cons, value?_cons,
      value?_nil]
    by_cases hk : field.1.same k = true
    · rw [if_pos hk, h.value?_tail hk, Option.none_or, if_pos hk]
    · rw [if_neg hk, if_neg hk, Option.or_none]

/-- An object in which no key comes twice is given by its keys and the values under them. -/
theorem Distinct.ext (h : Distinct fields) (hkeys : fields.keys = fields'.keys)
    (hvalues : ∀ k, fields.value? k = fields'.value? k) : fields = fields' := by
  induction fields generalizing fields' with
  | nil => simpa [keys] using hkeys.symm
  | cons field rest ih =>
    cases fields' with
    | nil => simp [keys] at hkeys
    | cons field' rest' =>
      have h' : Distinct (field' :: rest') := by rwa [Distinct, ← hkeys]
      rw [keys_cons, keys_cons] at hkeys
      obtain ⟨hkey, hkeys⟩ := List.cons.inj hkeys
      have hvalue := hvalues field.1
      rw [value?_cons, value?_cons, ← hkey, if_pos (Key.same_self _), if_pos (Key.same_self _)]
        at hvalue
      have hfield : field = field' := Prod.ext hkey (Option.some.inj hvalue)
      refine congr (congrArg List.cons hfield)
        (ih (List.pairwise_cons.mp h).2 hkeys fun k => ?_)
      have hk := hvalues k
      rw [value?_cons, value?_cons, ← hkey] at hk
      -- What the first member names is found in neither of the two objects behind it.
      by_cases hsame : field.1.same k = true
      · rw [h.value?_tail hsame, h'.value?_tail (hkey ▸ hsame)]
      · rwa [if_neg hsame, if_neg hsame] at hk

/-- Members that are to be set may be gathered in an object first. -/
theorem update_ofList (h : Distinct fields) (additions : Fields) :
    update fields (ofList additions) = update fields additions := by
  refine (h.update _).ext ?_ fun k => ?_
  · rw [keys_update, keys_update]
    change List.foldl _ _ (update [] additions).keys = _
    rw [keys_update]
    exact foldl_keepFirst_foldl _ Key.same_trans _ _
  · rw [value?_update, value?_update, (distinct_ofList additions).value?_reverse]
    change ((update [] additions).value? k).or _ = _
    rw [value?_update, value?_nil, Option.or_none]

/-- A key that is new comes last. -/
theorem put_of_forall {key : Key} (h : ∀ k ∈ fields.keys, k.same key = false) (value : Node) :
    put fields key value = fields ++ [(key, value)] := by
  induction fields with
  | nil => rfl
  | cons field rest ih =>
    rw [keys_cons, List.forall_mem_cons] at h
    rw [put, h.1, if_neg Bool.false_ne_true, ih h.2, List.cons_append]

/-- Additions with keys of their own come behind the members that were there. -/
theorem update_of_distinct {additions : Fields} (h : Distinct (fields ++ additions)) :
    update fields additions = fields ++ additions := by
  induction additions generalizing fields with
  | nil => exact (List.append_nil fields).symm
  | cons addition rest ih =>
    have hnew : ∀ k ∈ fields.keys, k.same addition.1 = false := by
      intro k hk
      rw [Distinct, keys, List.map_append, List.pairwise_append] at h
      exact h.2.2 k hk addition.1 List.mem_cons_self
    rw [List.append_cons] at h
    calc update fields (addition :: rest)
      _ = update (put fields addition.1 addition.2) rest := rfl
      _ = update (fields ++ [addition]) rest := by rw [put_of_forall hnew]
      _ = fields ++ [addition] ++ rest := ih h
      _ = fields ++ addition :: rest := (List.append_cons _ _ _).symm

/-- Members with different keys are written one after another as they are. -/
theorem Distinct.ofList_eq (h : Distinct fields) : ofList fields = fields :=
  update_of_distinct h

/-- Every key of the members stands where it came first. -/
theorem keys_ofList (members : Fields) :
    (ofList members).keys = members.keys.eraseDupsBy Key.same := by
  change (update [] members).keys = _
  rw [keys_update, keys_nil, foldl_keepFirst_nil _ Key.same_comm]

/-- Under every key is the value of the last of the members. -/
theorem value?_ofList (members : Fields) (k : Key) :
    (ofList members).value? k = value? members.reverse k := by
  change (update [] members).value? k = _
  rw [value?_update, value?_nil, Option.or_none]

end Fields

end ClientGen
