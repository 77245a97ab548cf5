import Mathlib.Data.List.Nodup
import ClientGen.Model.Module

/-!
# Association lists

The lists of keys and values that a pass fills, and the grouping of names by what owns them.

* `lookup_assign`, `lookup_alter`: what is found under a key afterwards.
* `grouped`, `grouped_spec`: names grouped by their owners.
-/

namespace ClientGen

variable {α β : Type} [DecidableEq α] {a k : α} {b : β}

/-! ## Keys and values -/

/-- The first entry decides if it has the key; otherwise the others do. -/
theorem lookup_cons_ite (a' k : α) (b' : β) (l : List (α × β)) :
    ((a', b') :: l).lookup k = if k = a' then some b' else l.lookup k := by
  by_cases h : k = a'
  · simp [h]
  · have hne : (k == a') = false := by simpa using h
    rw [List.lookup_cons, hne, if_neg h]

/-- After a key is assigned, it has its value, and all others have theirs. -/
@[simp]
theorem lookup_assign (a k : α) (b : β) (l : List (α × β)) :
    (assign a b l).lookup k = if k = a then some b else l.lookup k := by
  induction l with
  | nil => rw [assign, lookup_cons_ite]
  | cons p l ih =>
    obtain ⟨a', b'⟩ := p
    rw [assign]
    by_cases ha : a' = a
    · subst ha
      by_cases h : k = a' <;> simp [lookup_cons_ite, h]
    · by_cases h : k = a'
      · subst h
        simp [ha]
      · simp [ha, lookup_cons_ite, h, ih]

/-- A new key comes last. -/
theorem assign_of_not_mem {l : List (α × β)} (h : a ∉ l.map Prod.fst) :
    assign a b l = l ++ [(a, b)] := by
  induction l with
  | nil => rfl
  | cons p l ih =>
    obtain ⟨a', b'⟩ := p
    simp only [List.map_cons, List.mem_cons, not_or] at h
    rw [assign, if_neg (Ne.symm h.1), ih h.2, List.cons_append]

variable (start : β) (f : β → β)

/-- After the value of a key is altered, it has the new one, and all others have theirs. -/
@[simp]
theorem lookup_alter (a k : α) (l : List (α × β)) :
    (alter a start f l).lookup k
      = if k = a then some (f ((l.lookup a).getD start)) else l.lookup k := by
  induction l with
  | nil => simp [alter, lookup_cons_ite]
  | cons p l ih =>
    obtain ⟨a', b'⟩ := p
    rw [alter]
    by_cases ha : a' = a
    · subst ha
      by_cases h : k = a' <;> simp [lookup_cons_ite, h]
    · have hne : a ≠ a' := Ne.symm ha
      by_cases h : k = a'
      · subst h
        simp [ha]
      · simp [ha, lookup_cons_ite, h, ih, hne]

/-- Changing a value adds its key at the end if it is new. -/
theorem keys_alter (a : α) (l : List (α × β)) :
    (alter a start f l).map Prod.fst
      = if a ∈ l.map Prod.fst then l.map Prod.fst else l.map Prod.fst ++ [a] := by
  induction l with
  | nil => rfl
  | cons p l ih =>
    obtain ⟨a', b'⟩ := p
    rw [alter]
    by_cases ha : a' = a
    · simp [ha]
    · have hne : a ≠ a' := Ne.symm ha
      simp only [ha, if_false, List.map_cons, ih, List.mem_cons, hne, false_or]
      split <;> simp

/-- Altering the value of a key leaves the keys distinct. -/
theorem nodup_keys_alter {l : List (α × β)} (h : (l.map Prod.fst).Nodup) :
    ((alter a start f l).map Prod.fst).Nodup := by
  rw [keys_alter]
  split
  · exact h
  · rename_i ha
    exact List.nodup_append.mpr ⟨h, List.nodup_singleton a,
      fun x hx y hy hxy => ha (List.mem_singleton.mp hy ▸ hxy ▸ hx)⟩

/-- The only entry that changes is the one under the key. -/
theorem mem_alter {l : List (α × β)} {p : α × β} (h : p ∈ alter a start f l) :
    p ∈ l ∨ ∃ b, p = (a, f b) := by
  induction l with
  | nil => exact .inr ⟨start, List.mem_singleton.mp h⟩
  | cons q l ih =>
    obtain ⟨a', b'⟩ := q
    rw [alter] at h
    split at h
    · rename_i ha
      rcases List.mem_cons.mp h with h | h
      · exact .inr ⟨b', by rw [h, ha]⟩
      · exact .inl (List.mem_cons_of_mem _ h)
    · rcases List.mem_cons.mp h with h | h
      · exact .inl (h ▸ List.mem_cons_self)
      · exact (ih h).imp_left (List.mem_cons_of_mem _)

/-- In a list without repeated keys, what is under a key is what is found under it. -/
theorem lookup_eq_some_iff_mem {l : List (α × β)} (h : (l.map Prod.fst).Nodup) :
    l.lookup k = some b ↔ (k, b) ∈ l := by
  induction l with
  | nil => simp
  | cons p l ih =>
    obtain ⟨a', b'⟩ := p
    rw [List.map_cons, List.nodup_cons] at h
    by_cases hk : k = a'
    · subst hk
      have hnot : (k, b) ∉ l := fun hmem => h.1 (List.mem_map.mpr ⟨_, hmem, rfl⟩)
      simp [hnot, eq_comm]
    · simp [lookup_cons_ite, hk, ih h.2]

/-! ## Groups -/

/-- Puts a name into the group of its owner, unless it is there. -/
def listUnder (owner name : String) :
    List (String × List String) → List (String × List String) :=
  alter owner [] fun known => if known.contains name then known else known ++ [name]

/-- Names grouped by their owners, each name once; names without an owner are left out. -/
def grouped (owner? : String → Option String) (names : List String) :
    List (String × List String) :=
  names.foldl (fun found name => match owner? name with
    | some owner => listUnder owner name found
    | none => found) []

/-- A name is listed under an owner. -/
def Lists (found : List (String × List String)) (owner name : String) : Prop :=
  ∃ names, (owner, names) ∈ found ∧ name ∈ names

/-- Groups of names by their owners: no owner comes twice, and in its group no name does. -/
structure Grouped (owner? : String → Option String) (found : List (String × List String)) :
    Prop where
  /-- No owner comes twice. -/
  owners : (found.map Prod.fst).Nodup
  /-- No group is empty. -/
  nonempty : ∀ group ∈ found, group.2 ≠ []
  /-- No name comes twice in a group. -/
  nodup : ∀ group ∈ found, group.2.Nodup
  /-- Each name is in the group of its owner. -/
  owned : ∀ {owner name}, Lists found owner name → owner? name = some owner

variable {owner? : String → Option String} {found : List (String × List String)}
  {owner name n : String}

/-- The group of an owner after a name was put into it. -/
theorem mem_listUnder (h : (found.map Prod.fst).Nodup) {group : String × List String} :
    group ∈ listUnder owner name found ↔
      if group.1 = owner then
        group.2 = (fun known => if known.contains name then known else known ++ [name])
          ((found.lookup owner).getD [])
      else group ∈ found := by
  obtain ⟨k, names⟩ := group
  rw [listUnder, ← lookup_eq_some_iff_mem h, ← lookup_eq_some_iff_mem (nodup_keys_alter _ _ h),
    lookup_alter]
  split
  · rw [Option.some.injEq, eq_comm]
  · rfl

/-- Putting a name under an owner lists that name in addition. -/
theorem lists_listUnder (h : (found.map Prod.fst).Nodup) {k : String} :
    Lists (listUnder owner name found) k n ↔ Lists found k n ∨ k = owner ∧ n = name := by
  -- Only the group of the owner changes.
  by_cases hk : k = owner
  · subst hk
    have hfound : Lists found k n ↔ n ∈ (found.lookup k).getD [] := by
      cases hl : found.lookup k with
      | none => simp [Lists, ← lookup_eq_some_iff_mem h, hl]
      | some names => simp [Lists, ← lookup_eq_some_iff_mem h, hl]
    have hafter : Lists (listUnder k name found) k n ↔
        n ∈ (fun known => if known.contains name then known else known ++ [name])
          ((found.lookup k).getD []) := by
      simp only [Lists, mem_listUnder h, if_true, exists_eq_left]
    rw [hafter, hfound]
    dsimp only
    split
    · rename_i hin
      have hmem : name ∈ (found.lookup k).getD [] := List.contains_iff_mem.mp hin
      exact ⟨.inl, fun hn => hn.elim id fun hn => hn.2 ▸ hmem⟩
    · simp
  · simp only [Lists, mem_listUnder h, hk, if_false, false_and, or_false]

namespace Grouped

theorem nil : Grouped owner? [] :=
  ⟨List.nodup_nil, by simp, by simp, by simp [Lists]⟩

/-- Putting a name under its owner keeps the groups in order. -/
theorem listUnder (h : Grouped owner? found) (hname : owner? name = some owner) :
    Grouped owner? (listUnder owner name found) where
  owners := nodup_keys_alter _ _ h.owners
  nonempty group hgroup := by
    rcases mem_alter _ _ hgroup with hgroup | ⟨names, rfl⟩
    · exact h.nonempty group hgroup
    · dsimp only
      split
      · rename_i hin
        exact List.ne_nil_of_mem (List.contains_iff_mem.mp hin)
      · simp
  nodup group hgroup := by
    rw [mem_listUnder h.owners] at hgroup
    split at hgroup
    · have hbefore : ((found.lookup owner).getD []).Nodup := by
        cases hl : found.lookup owner with
        | none => exact List.nodup_nil
        | some names => exact h.nodup _ ((lookup_eq_some_iff_mem h.owners).mp hl)
      rw [hgroup]
      dsimp only
      split
      · exact hbefore
      · rename_i hnot
        refine List.nodup_append.mpr ⟨hbefore, List.nodup_singleton _, fun x hx y hy hxy => ?_⟩
        exact hnot (List.contains_iff_mem.mpr (List.mem_singleton.mp hy ▸ hxy ▸ hx))
    · exact h.nodup group hgroup
  owned hlists := by
    rcases (lists_listUnder h.owners).mp hlists with hlists | ⟨rfl, rfl⟩
    · exact h.owned hlists
    · exact hname

/-- Over all groups no name comes twice. -/
theorem nodup_all (h : Grouped owner? found) : (found.flatMap Prod.snd).Nodup := by
  refine List.nodup_flatMap.mpr ⟨h.nodup, ?_⟩
  have hkeys : found.Pairwise fun g g' => g.1 ≠ g'.1 := List.pairwise_map.mp h.owners
  refine hkeys.imp_of_mem fun {g g'} hg hg' hne n hn hn' => hne (Option.some.inj ?_)
  -- A name in both groups would have both owners.
  rw [← h.owned ⟨g.2, hg, hn⟩, ← h.owned ⟨g'.2, hg', hn'⟩]

end Grouped

/-- The groups of some names are in order, and list the names that have an owner. -/
theorem grouped_spec (owner? : String → Option String) (names : List String) :
    Grouped owner? (grouped owner? names) ∧ ∀ owner name,
      Lists (grouped owner? names) owner name ↔ name ∈ names ∧ owner? name = some owner := by
  -- The claim for any table that the fold has reached, by the names that are left.
  have hfold : ∀ (rest : List String) (found : List (String × List String)),
      Grouped owner? found →
      let after := rest.foldl (fun found name => match owner? name with
        | some owner => listUnder owner name found
        | none => found) found
      Grouped owner? after ∧ ∀ owner name, Lists after owner name ↔
        Lists found owner name ∨ name ∈ rest ∧ owner? name = some owner := by
    intro rest
    induction rest with
    | nil => exact fun found h => ⟨h, by simp⟩
    | cons first rest ih =>
      intro found h
      rw [List.foldl_cons]
      cases hfirst : owner? first with
      | none =>
        refine ⟨(ih found h).1, fun owner name => ?_⟩
        rw [(ih found h).2, List.mem_cons, or_and_right]
        have hnot : ¬ (name = first ∧ owner? name = some owner) := by
          rintro ⟨rfl, howner⟩
          simp [hfirst] at howner
        rw [or_iff_right hnot]
      | some o =>
        have h' := h.listUnder hfirst
        refine ⟨(ih _ h').1, fun owner name => ?_⟩
        rw [(ih _ h').2, lists_listUnder h.owners, List.mem_cons, or_and_right, or_assoc]
        have hiff : owner = o ∧ name = first ↔ name = first ∧ owner? name = some owner :=
          ⟨fun ⟨ho, hn⟩ => ⟨hn, by rw [hn, ho, hfirst]⟩,
            fun ⟨hn, ho⟩ => ⟨(Option.some.inj (hfirst ▸ hn ▸ ho)).symm, hn⟩⟩
        rw [hiff]
  have h := hfold names [] .nil
  refine ⟨h.1, fun owner name => ?_⟩
  rw [grouped, h.2]
  simp [Lists]

end ClientGen
