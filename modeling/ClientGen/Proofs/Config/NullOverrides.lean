import ClientGen.Proofs.Config.Order
import ClientGen.Proofs.Schema.Reach

/-!
# Nulls among overrides

A null among the overrides leaves a setting as it is in the file, unless the file does not have the
section that the null stands in.

* `Node.withoutNulls`: a node without the nulls in it, and without the objects that this empties.
* `Node.hidesNothing`: no null stands behind a value of the same name.
* `Config.Spared`: every null stands in a section that is there.
* `Config.alike_laid_withoutNulls_iff`: just then, nulls make no difference to what is laid over.
* `Settings.ofLayers_withoutNulls`: when nulls make no difference to the settings.
* `Settings.exists_null_that_matters`: in a section that the file does not have, a null is refused.
-/

namespace ClientGen

open Config

namespace Config

/-- The members of an object under the names of settings. -/
def named (fields : Fields) : Fields := Fields.ofList (snakeFields fields)

/-- The value of the last member with a name. -/
def last? : Fields → Key → Option Node
  | [], _ => none
  | (k, v) :: rest, name =>
    (last? rest name).or (if (Key.text (snakeCase k.label)).same name then some v else none)

end Config

namespace Node

mutual

/-- A node without nulls: members with a null are left out at every depth, and so are objects of
which no member is left. Lists stay as they are. None is left of a null. -/
def withoutNulls : Node → Option Node
  | .null => none
  | .object fields =>
    if (membersWithoutNulls fields).isEmpty && !fields.isEmpty then none
    else some (.object (membersWithoutNulls fields))
  | node => some node

/-- The members of an object that are left without nulls. -/
def membersWithoutNulls : List (Key × Node) → List (Key × Node)
  | [] => []
  | (k, v) :: rest =>
    match v.withoutNulls with
    | none => membersWithoutNulls rest
    | some w => (k, w) :: membersWithoutNulls rest

end

mutual

/-- Is nothing hidden by a member that is left out, in the node or in an object inside of it? -/
def hidesNothing : Node → Bool
  | .object fields => membersHideNothing fields
  | _ => true

/-- Is nothing hidden among the members of an object, or inside of the last ones of each name? A
member that stays is hidden if the last member of its name is left out. -/
def membersHideNothing : List (Key × Node) → Bool
  | [] => true
  | (k, v) :: rest =>
    (match last? rest (.text (snakeCase k.label)) with
      | none => v.hidesNothing
      | some u => v.withoutNulls.isNone || u.withoutNulls.isSome)
      && membersHideNothing rest

end

end Node

open Node

/-! ## Members by their names -/

namespace Config

variable {fields : Fields} {key name : Key} {v w : Node}

/-- The value of a setting is that of the last member with its name, under the names of settings. -/
theorem value?_named (fields : Fields) (name : Key) :
    Fields.value? (named fields) name = (last? fields name).map snakeKeys := by
  rw [named, Fields.value?_ofList]
  induction fields with
  | nil => rfl
  | cons member rest ih =>
    rw [snakeFields, List.reverse_cons, Fields.value?_append, ih, Fields.value?_cons,
      Fields.value?_nil, last?, Option.map_or]
    split <;> rfl

/-- The names of settings are distinct. -/
theorem distinct_named (fields : Fields) : Fields.Distinct (named fields) :=
  Fields.distinct_ofList _

/-- Members are found by any key that names the same one. -/
theorem last?_congr {name' : Key} (h : name.same name' = true) (fields : Fields) :
    last? fields name = last? fields name' := by
  induction fields with
  | nil => rfl
  | cons member rest ih =>
    rw [last?, last?, ih, Key.same_comm, Key.same_congr h, Key.same_comm]

/-- A value that is found belongs to a member. -/
theorem exists_mem_of_last? (h : last? fields name = some v) : ∃ k, (k, v) ∈ fields := by
  induction fields with
  | nil => cases h
  | cons member rest ih =>
    obtain ⟨k, u⟩ := member
    rw [last?, Option.or_eq_some_iff] at h
    rcases h with h | ⟨-, h⟩
    · obtain ⟨k', hmem⟩ := ih h
      exact ⟨k', List.mem_cons_of_mem _ hmem⟩
    · split at h
      · obtain rfl := Option.some.inj h
        exact ⟨k, List.mem_cons_self⟩
      · cases h

/-- There is a last one of the members with the name of the first. -/
theorem last?_cons_ne_none (member : Key × Node) (rest : Fields) :
    last? (member :: rest) (.text (snakeCase member.1.label)) ≠ none := by
  rw [last?, if_pos (Key.same_self _)]
  cases last? rest _ <;> simp

/-- If nothing is hidden, then the last member of a name is, without nulls, the last one left. -/
theorem last?_membersWithoutNulls (h : membersHideNothing fields) (name : Key) :
    last? (membersWithoutNulls fields) name = (last? fields name).bind withoutNulls := by
  induction fields with
  | nil => rfl
  | cons member rest ih =>
    obtain ⟨k, v⟩ := member
    rw [membersHideNothing, Bool.and_eq_true] at h
    obtain ⟨hkept, hrest⟩ := h
    have hlater := ih hrest
    rw [membersWithoutNulls, last?]
    by_cases hsame : (Key.text (snakeCase k.label)).same name
    · rw [if_pos hsame]
      rw [last?_congr hsame] at hkept
      cases hv : v.withoutNulls with
      | none =>
        rw [hlater]
        cases last? rest name <;> simp [hv]
      | some w =>
        dsimp only
        rw [last?, if_pos hsame, hlater]
        cases hu : last? rest name with
        | none => simp [hv]
        | some u =>
          -- The last member is left, so this one does not come into view.
          rw [hu] at hkept
          obtain ⟨u', hu'⟩ := Option.isSome_iff_exists.mp (by simpa [hv] using hkept)
          simp [hu']
    · rw [if_neg hsame, Option.or_none, ← hlater]
      cases v.withoutNulls with
      | none => rfl
      | some w =>
        dsimp only
        rw [last?, if_neg hsame, Option.or_none]

/-! ## What is laid over a place -/

/-- What is in a place after something was laid over it, which can be nothing. -/
def laid (old new : Option Node) : Option Node :=
  match new with
  | none | some .null => old
  | some v => some (overlayNode old v)

/-- Something that is no null is laid over what was there as a node over a node. -/
theorem laid_some (hv : v ≠ .null) (old : Option Node) :
    laid old (some v) = some (overlayNode old v) := by
  cases v with
  | null => exact absurd rfl hv
  | _ => rfl

/-- What is laid over no object takes its place. -/
theorem laid_of_not_object {old : Option Node} (hold : ∀ base, old ≠ some (.object base))
    (hv : v ≠ .null) : laid old (some v) = some v := by
  rw [laid_some hv]
  cases v with
  | object fields =>
    rw [overlayNode]
    exact hold
  | _ => rfl

/-- Members are laid over an object one after another. -/
theorem overlay_cons (base : Fields) (member : Key × Node) (rest : Fields) :
    overlay base (member :: rest) = overlay (overlay base [member]) rest := by
  obtain ⟨k, v⟩ := member
  cases v <;> rfl

/-- Laying one member over an object sets it to what was there, with the new value laid over
that. -/
theorem overlay_singleton (hv : v ≠ .null) (base : Fields) (key : Key) :
    overlay base [(key, v)] = Fields.put base key (overlayNode (Fields.value? base key) v) := by
  cases v with
  | null => exact absurd rfl hv
  | _ => rfl

/-- One member is laid over what is under its key, and leaves everything else. -/
theorem value?_overlay_singleton (base : Fields) (key name : Key) (v : Node) :
    Fields.value? (overlay base [(key, v)]) name
      = if key.same name then laid (Fields.value? base name) (some v)
        else Fields.value? base name := by
  by_cases hv : v = .null
  · subst hv
    exact (ite_self _).symm
  · rw [overlay_singleton hv, Fields.value?_put, laid_some hv]
    split
    · rename_i hsame
      rw [Fields.value?_congr hsame]
    · rfl

/-- What is laid over an object is laid over its members. -/
theorem value?_overlay {additions : Fields} (h : Fields.Distinct additions) (base : Fields)
    (name : Key) : Fields.value? (overlay base additions) name
      = laid (Fields.value? base name) (Fields.value? additions name) := by
  induction additions generalizing base with
  | nil => rfl
  | cons addition rest ih =>
    -- No two members have one key, so what the first one sets is not touched again.
    rw [overlay_cons, ih (List.pairwise_cons.mp h).2, value?_overlay_singleton, Fields.value?_cons]
    by_cases hsame : addition.1.same name
    · rw [if_pos hsame, if_pos hsame, h.value?_tail hsame]
      rfl
    · rw [if_neg hsame, if_neg hsame]

/-! ## Nulls that are left in what is laid over -/

/-- No null stands inside of a node. -/
def HoldsNoNull (v : Node) : Prop := ∀ path key, v.at? (path ++ [key]) ≠ some .null

/-- Every null in what is laid over a place stands in an object that is there. -/
def Spared (old : Option Node) (new : Node) : Prop :=
  ∀ path key, new.at? (path ++ [key]) = some .null →
    ∃ base, old.bind (·.at? path) = some (.object base)

variable {base : Fields} {old : Option Node}

/-- No null stands in an object exactly if none is the value of a member, and none stands in such a
value. -/
theorem holdsNoNull_object_iff : HoldsNoNull (.object fields) ↔
    ∀ name v, Fields.value? fields name = some v → v ≠ .null ∧ HoldsNoNull v := by
  constructor
  · intro h name v hv
    refine ⟨?_, fun path key hnull => ?_⟩
    · rintro rfl
      exact h [] name (by simp [hv])
    · exact h (name :: path) key (by simpa [hv] using hnull)
  · intro h path key hnull
    -- A null right under the object, or one below the member the path names first.
    cases path with
    | nil =>
      rw [List.nil_append, at?_object_cons] at hnull
      obtain ⟨v, hv, hnull⟩ := Option.bind_eq_some_iff.mp hnull
      exact (h key v hv).1 (Option.some.inj hnull)
    | cons name path =>
      rw [List.cons_append, at?_object_cons] at hnull
      obtain ⟨v, hv, hnull⟩ := Option.bind_eq_some_iff.mp hnull
      exact (h name v hv).2 path key hnull

/-- No null stands inside of a node that is no object. -/
theorem holdsNoNull_of_leaf (h : v.isObject = false) : HoldsNoNull v := by
  intro path key hnull
  cases path <;> simp [at?_cons_of_leaf h] at hnull

/-- A node that is no object spares what it is laid over. -/
theorem spared_of_leaf (h : v.isObject = false) (old : Option Node) : Spared old v :=
  fun path key hnull => absurd hnull (holdsNoNull_of_leaf h path key)

/-- An object spares another one exactly if each of its values spares the one of the same name. -/
theorem spared_object_iff : Spared (some (.object base)) (.object fields) ↔
    ∀ name v, Fields.value? fields name = some v → Spared (Fields.value? base name) v := by
  constructor
  · intro h name v hv path key hnull
    exact h (name :: path) key (by simpa [hv] using hnull)
  · intro h path key hnull
    cases path with
    | nil => exact ⟨base, rfl⟩
    | cons name path =>
      rw [List.cons_append, at?_object_cons] at hnull
      obtain ⟨v, hv, hnull⟩ := Option.bind_eq_some_iff.mp hnull
      exact h name v hv path key hnull

/-- Over what is no object, all nulls stay. -/
theorem spared_iff_of_not_object (hold : ∀ base, old ≠ some (.object base)) :
    Spared old v ↔ HoldsNoNull v := by
  refine ⟨fun h path key hnull => ?_, fun h path key hnull => absurd hnull (h path key)⟩
  obtain ⟨base, hbase⟩ := h path key hnull
  obtain ⟨u, rfl, hu⟩ := Option.bind_eq_some_iff.mp hbase
  cases u with
  | object fields => exact hold fields rfl
  | _ => cases path <;> simp [at?] at hu

/-- A node that is no object has no names to change. -/
theorem snakeKeys_of_leaf (h : v.isObject = false) : snakeKeys v = v := by
  cases v with
  | object fields => cases h
  | _ => rfl

/-- Changing names makes no null. -/
theorem snakeKeys_ne_null (hv : v ≠ .null) : snakeKeys v ≠ .null := by
  cases v with
  | object fields => exact Node.noConfusion
  | _ => exact hv

/-- A node that is neither an object nor null is left as it is without nulls. -/
theorem withoutNulls_of_leaf (h : v.isObject = false) (hv : v ≠ .null) :
    v.withoutNulls = some v := by
  cases v with
  | object fields => cases h
  | null => exact absurd rfl hv
  | _ => rfl

/-- The members that are left without nulls are those of which something is left. -/
theorem membersWithoutNulls_eq (fields : Fields) :
    membersWithoutNulls fields = fields.filterMap fun f => f.2.withoutNulls.map (f.1, ·) := by
  induction fields with
  | nil => rfl
  | cons member rest ih =>
    rw [membersWithoutNulls, List.filterMap_cons, ih]
    cases member.2.withoutNulls <;> rfl

/-- The members that are left are those of which something is left. -/
theorem mem_membersWithoutNulls_iff : (key, w) ∈ membersWithoutNulls fields ↔
    ∃ v, (key, v) ∈ fields ∧ v.withoutNulls = some w := by
  rw [membersWithoutNulls_eq, List.mem_filterMap]
  constructor
  · rintro ⟨⟨k, v⟩, hmem, hkept⟩
    obtain ⟨w, hw, heq⟩ := Option.map_eq_some_iff.mp hkept
    obtain ⟨rfl, rfl⟩ := Prod.mk.inj heq
    exact ⟨v, hmem, hw⟩
  · rintro ⟨v, hmem, hw⟩
    exact ⟨(key, v), hmem, by rw [hw]; rfl⟩

/-- What is left without nulls is no null and holds none. -/
theorem holdsNoNull_of_withoutNulls (h : v.withoutNulls = some w) :
    w ≠ .null ∧ HoldsNoNull (snakeKeys w) := by
  induction v using members_induction generalizing w with
  | object fields ih =>
    rw [withoutNulls] at h
    split at h
    · cases h
    · obtain rfl := Option.some.inj h
      refine ⟨Node.noConfusion, ?_⟩
      -- A member that is left comes from a written member without its own nulls.
      rw [snakeKeys, ← named, holdsNoNull_object_iff]
      intro name u hu
      rw [value?_named] at hu
      obtain ⟨w, hw, rfl⟩ := Option.map_eq_some_iff.mp hu
      obtain ⟨k, hmem⟩ := exists_mem_of_last? hw
      obtain ⟨v, hv, hvw⟩ := mem_membersWithoutNulls_iff.mp hmem
      obtain ⟨hne, hfull⟩ := ih k v hv hvw
      exact ⟨snakeKeys_ne_null hne, hfull⟩
  | leaf v hleaf =>
    by_cases hv : v = .null
    · subst hv
      cases h
    · obtain rfl := Option.some.inj ((withoutNulls_of_leaf hleaf hv).symm.trans h)
      refine ⟨hv, ?_⟩
      rw [snakeKeys_of_leaf hleaf]
      exact holdsNoNull_of_leaf hleaf

/-- Where there is no null in an object, the last member of each name is none and holds none. -/
theorem holdsNoNull_of_last? (hfull : HoldsNoNull (snakeKeys (.object fields)))
    (hlast : last? fields name = some v) : v ≠ .null ∧ HoldsNoNull (snakeKeys v) := by
  rw [snakeKeys, ← named, holdsNoNull_object_iff] at hfull
  obtain ⟨hne, hinside⟩ := hfull name (snakeKeys v) (by rw [value?_named, hlast]; rfl)
  refine ⟨?_, hinside⟩
  rintro rfl
  exact hne rfl

/-- Of what is no null and holds none, something is left. -/
theorem exists_withoutNulls (hv : v ≠ .null) (hfull : HoldsNoNull (snakeKeys v)) :
    ∃ w, v.withoutNulls = some w := by
  induction v using members_induction with
  | object fields ih =>
    cases fields with
    | nil => exact ⟨.object [], rfl⟩
    | cons member rest =>
      -- The last member with the name of the first one is left.
      obtain ⟨u, hu⟩ := Option.ne_none_iff_exists'.mp (last?_cons_ne_none member rest)
      obtain ⟨k, hmem⟩ := exists_mem_of_last? hu
      obtain ⟨hne, hinside⟩ := holdsNoNull_of_last? hfull hu
      obtain ⟨w, hw⟩ := ih k u hmem hne hinside
      have hkept := mem_membersWithoutNulls_iff.mpr ⟨u, hmem, hw⟩
      refine ⟨.object (membersWithoutNulls (member :: rest)), ?_⟩
      rw [withoutNulls, if_neg]
      simp [List.ne_nil_of_mem hkept]
  | leaf v hleaf => exact ⟨v, withoutNulls_of_leaf hleaf hv⟩

/-- Nothing is hidden if the last member of each name hides nothing inside of it, and is left if
another member of that name is. -/
theorem membersHideNothing_iff : membersHideNothing fields ↔ ∀ name u, last? fields name = some u →
    u.hidesNothing ∧ (u.withoutNulls = none → last? (membersWithoutNulls fields) name = none) := by
  constructor
  · intro h name u hu
    refine ⟨?_, fun hnone => by rw [last?_membersWithoutNulls h, hu, Option.bind_some, hnone]⟩
    -- A member counts itself only if no further one has its name.
    induction fields with
    | nil => cases hu
    | cons member rest ih =>
      rw [membersHideNothing, Bool.and_eq_true] at h
      rw [last?, Option.or_eq_some_iff] at hu
      rcases hu with hu | ⟨hnone, hu⟩
      · exact ih h.2 hu
      · split at hu
        · rename_i hsame
          obtain rfl := Option.some.inj hu
          rw [last?_congr hsame, hnone] at h
          exact h.1
        · cases hu
  · intro h
    induction fields with
    | nil => rfl
    | cons member rest ih =>
      obtain ⟨k, v⟩ := member
      rw [membersHideNothing, Bool.and_eq_true]
      constructor
      · cases hu : last? rest (.text (snakeCase k.label)) with
        | none =>
          refine (h (.text (snakeCase k.label)) v ?_).1
          rw [last?, hu, if_pos (Key.same_self _)]
          rfl
        | some u =>
          obtain ⟨-, hhidden⟩ := h (.text (snakeCase k.label)) u (by rw [last?, hu]; rfl)
          -- If the last one is left out, then so is this one, or it would be left as the last.
          rw [Bool.or_eq_true, Option.isNone_iff_eq_none, Option.isSome_iff_ne_none]
          refine or_iff_not_imp_right.mpr fun hnone => ?_
          have hall := hhidden (not_not.mp hnone)
          cases hv : v.withoutNulls with
          | none => rfl
          | some w =>
            rw [membersWithoutNulls, hv] at hall
            exact absurd hall (last?_cons_ne_none (k, w) _)
      · refine ih fun name u hu => ?_
        obtain ⟨hinside, hhidden⟩ := h name u (by rw [last?, hu]; rfl)
        refine ⟨hinside, fun hnone => ?_⟩
        have hall := hhidden hnone
        rw [membersWithoutNulls] at hall
        cases hv : v.withoutNulls with
        | none => rwa [hv] at hall
        | some w =>
          rw [hv] at hall
          exact (Option.or_eq_none_iff.mp hall).1

/-- Where there is no null, nothing is hidden by one. -/
theorem hidesNothing_of_holdsNoNull (hfull : HoldsNoNull (snakeKeys v)) : v.hidesNothing := by
  induction v using members_induction with
  | object fields ih =>
    rw [hidesNothing, membersHideNothing_iff]
    intro name u hu
    obtain ⟨k, hmem⟩ := exists_mem_of_last? hu
    obtain ⟨hne, hinside⟩ := holdsNoNull_of_last? hfull hu
    refine ⟨ih k u hmem hinside, fun hnone => ?_⟩
    obtain ⟨w, hw⟩ := exists_withoutNulls hne hinside
    rw [hw] at hnone
    cases hnone
  | leaf v hleaf => cases v <;> first | rfl | cases hleaf

/-- What is no null and holds none stays, except for the order of members. -/
theorem alike_withoutNulls (hfull : HoldsNoNull (snakeKeys v)) (hw : v.withoutNulls = some w) :
    Alike (some (snakeKeys v)) (some (snakeKeys w)) := by
  induction v using members_induction generalizing w with
  | object fields ih =>
    have hhides := hidesNothing_of_holdsNoNull hfull
    rw [hidesNothing] at hhides
    rw [withoutNulls] at hw
    split at hw
    · cases hw
    · obtain rfl := Option.some.inj hw
      rw [snakeKeys, snakeKeys, ← named, ← named, alike_object_iff]
      intro name
      rw [value?_named, value?_named, last?_membersWithoutNulls hhides]
      -- A key found last with its nulls is found last without them, as no later null hides it.
      cases hu : last? fields name with
      | none => exact .rfl
      | some u =>
        obtain ⟨k, hmem⟩ := exists_mem_of_last? hu
        obtain ⟨hne, hinside⟩ := holdsNoNull_of_last? hfull hu
        obtain ⟨w, hw⟩ := exists_withoutNulls hne hinside
        rw [Option.bind_some, hw]
        exact ih k u hmem hinside hw
  | leaf v hleaf =>
    by_cases hv : v = .null
    · subst hv
      cases hw
    · obtain rfl := Option.some.inj ((withoutNulls_of_leaf hleaf hv).symm.trans hw)
      exact .rfl

/-- A null inside of a node shows in all nodes that are alike. -/
theorem HoldsNoNull.of_alike (h : HoldsNoNull w) (halike : Alike (some v) (some w)) :
    HoldsNoNull v := by
  intro path key hnull
  have hshown := halike (path ++ [key])
  rw [view?, Option.bind_some, hnull] at hshown
  obtain ⟨u, hu, hleaf⟩ := Option.map_eq_some_iff.mp hshown.symm
  obtain rfl : u = .null := by
    cases u <;> simp_all [leaf?]
  exact h path key hu

/-! ## Overrides with and without nulls -/

/-- The settings of a file with overrides laid over them. -/
def merged (base overrides : Fields) : Option Node :=
  some (.object (overlay base (named overrides)))

/-- Laying an object without its nulls over another one lays the members over it that are left. -/
theorem laid_object_withoutNulls (base fields : Fields) :
    laid (some (.object base)) ((Node.object fields).withoutNulls.map snakeKeys)
      = merged base (membersWithoutNulls fields) := by
  rw [withoutNulls]
  split
  · rename_i hempty
    rw [Bool.and_eq_true, List.isEmpty_iff] at hempty
    rw [hempty.1]
    rfl
  · rfl

/-- Nothing stands below a place that has no object. -/
theorem view?_concat_of_not_object (hold : ∀ base, old ≠ some (.object base)) (path : List Key)
    (key : Key) : view? old (path ++ [key]) = none := by
  cases old with
  | none => rfl
  | some v => cases v with
    | object base => exact absurd rfl (hold base)
    | _ => cases path <;> rfl

/-- If what is laid over a place that has no object comes to the same as something without nulls,
then it holds none itself. -/
theorem holdsNoNull_of_alike_laid {kept : Option Node} (hold : ∀ base, old ≠ some (.object base))
    (hv : v ≠ .null) (hkept : ∀ w, kept = some w → w ≠ .null ∧ HoldsNoNull (snakeKeys w))
    (halike : Alike (laid old (some (snakeKeys v))) (laid old (kept.map snakeKeys))) :
    HoldsNoNull (snakeKeys v) := by
  rw [laid_of_not_object hold (snakeKeys_ne_null hv)] at halike
  cases kept with
  | none =>
    -- Nothing stands below the place, so a null there would show.
    intro path key hnull
    have hshown := halike (path ++ [key])
    rw [Option.map_none, laid, view?_concat_of_not_object hold, view?, Option.bind_some, hnull]
      at hshown
    cases hshown
  | some w =>
    obtain ⟨hne, hfull⟩ := hkept w rfl
    rw [Option.map_some, laid_of_not_object hold (snakeKeys_ne_null hne)] at halike
    exact hfull.of_alike halike

/-- Over what is no object, a node is laid as it is, and comes to the same without nulls only if
there are none. -/
theorem alike_laid_withoutNulls_of_not_object (hv : v ≠ .null)
    (hold : ∀ base, old ≠ some (.object base)) :
    Alike (laid old (some (snakeKeys v))) (laid old (v.withoutNulls.map snakeKeys)) ↔
      HoldsNoNull (snakeKeys v) := by
  refine ⟨holdsNoNull_of_alike_laid hold hv fun w => holdsNoNull_of_withoutNulls, fun hfull => ?_⟩
  obtain ⟨w, hw⟩ := exists_withoutNulls hv hfull
  obtain ⟨hne, -⟩ := holdsNoNull_of_withoutNulls hw
  rw [hw, Option.map_some, laid_of_not_object hold (snakeKeys_ne_null hv),
    laid_of_not_object hold (snakeKeys_ne_null hne)]
  exact alike_withoutNulls hfull hw

/-- A node laid over a place comes to the same with and without nulls exactly when every null in it
stands in an object that is there. -/
theorem alike_laid_withoutNulls_iff (h : v.hidesNothing) (old : Option Node) :
    Alike (laid old (some (snakeKeys v))) (laid old (v.withoutNulls.map snakeKeys)) ↔
      Spared old (snakeKeys v) := by
  induction v using members_induction generalizing old with
  | object fields ih =>
    by_cases hold : ∃ base, old = some (.object base)
    · -- Over an object, the members are laid over its members.
      obtain ⟨base, rfl⟩ := hold
      rw [hidesNothing] at h
      rw [laid_object_withoutNulls]
      change Alike (merged base fields) _ ↔ Spared _ (.object (named fields))
      rw [merged, merged, alike_object_iff, spared_object_iff]
      refine forall_congr' fun name => ?_
      rw [value?_overlay (distinct_named _), value?_overlay (distinct_named _),
        value?_named, value?_named, last?_membersWithoutNulls h]
      cases hu : last? fields name with
      | none => simp [laid, Alike.rfl]
      | some u =>
        obtain ⟨k, hmem⟩ := exists_mem_of_last? hu
        simpa using ih k u hmem (membersHideNothing_iff.mp h name u hu).1 (Fields.value? base name)
    · rw [not_exists] at hold
      rw [alike_laid_withoutNulls_of_not_object Node.noConfusion hold,
        spared_iff_of_not_object hold]
  | leaf v hleaf =>
    refine iff_of_true ?_ (by rw [snakeKeys_of_leaf hleaf]; exact spared_of_leaf hleaf old)
    by_cases hv : v = .null
    · subst hv
      exact .rfl
    · rw [withoutNulls_of_leaf hleaf hv]
      exact .rfl

/-- Overrides come to the same with and without nulls exactly when every null stands in a section
that is there. -/
theorem alike_merged_withoutNulls_iff {overrides : Fields}
    (h : (Node.object overrides).hidesNothing) (base : Fields) :
    Alike (merged base overrides) (merged base (membersWithoutNulls overrides)) ↔
      Spared (some (.object base)) (.object (named overrides)) := by
  rw [← laid_object_withoutNulls]
  exact alike_laid_withoutNulls_iff h (some (.object base))

/-- Where no null hides a value of the same name and no section has a null in it, overrides come to
the same with and without nulls over any settings. -/
theorem alike_merged_withoutNulls {overrides : Fields}
    (h : (Node.object overrides).hidesNothing)
    (hfull : ∀ name v, Fields.value? (named overrides) name = some v → HoldsNoNull v)
    (base : Fields) :
    Alike (merged base overrides) (merged base (membersWithoutNulls overrides)) := by
  refine (alike_merged_withoutNulls_iff h base).mpr (spared_object_iff.mpr fun name v hv => ?_)
  exact fun path key hnull => absurd hnull (hfull name v hv path key)

/-- Over no settings at all, overrides come to the same with and without nulls only if no null hides
a value of the same name and no section has a null in it. -/
theorem of_alike_merged_nil {overrides : Fields}
    (h : Alike (merged [] overrides) (merged [] (membersWithoutNulls overrides))) :
    (Node.object overrides).hidesNothing ∧
      ∀ name v, Fields.value? (named overrides) name = some v → HoldsNoNull v := by
  -- The last member of each name takes its place as it is.
  have hplace : ∀ name u, last? overrides name = some u → Alike (laid none (some (snakeKeys u)))
      (laid none ((last? (membersWithoutNulls overrides) name).map snakeKeys)) := by
    intro name u hu
    have halike := alike_object_iff.mp h name
    rwa [value?_overlay (distinct_named _), value?_overlay (distinct_named _), value?_named,
      value?_named, hu] at halike
  have hempty : ∀ base, (none : Option Node) ≠ some (.object base) := nofun
  have hkept : ∀ name w, last? (membersWithoutNulls overrides) name = some w →
      w ≠ .null ∧ HoldsNoNull (snakeKeys w) := by
    intro name w hlast
    obtain ⟨k, hmem⟩ := exists_mem_of_last? hlast
    obtain ⟨v, -, hw⟩ := mem_membersWithoutNulls_iff.mp hmem
    exact holdsNoNull_of_withoutNulls hw
  have hfull : ∀ name u, last? overrides name = some u → HoldsNoNull (snakeKeys u) := by
    intro name u hu
    by_cases hv : u = .null
    · subst hv
      exact holdsNoNull_of_leaf rfl
    · exact holdsNoNull_of_alike_laid hempty hv (hkept name) (hplace name u hu)
  refine ⟨?_, fun name v hv => ?_⟩
  · rw [hidesNothing, membersHideNothing_iff]
    intro name u hu
    refine ⟨hidesNothing_of_holdsNoNull (hfull name u hu), fun hnone => ?_⟩
    -- Only a null is left out, and it leaves nothing in the place.
    obtain rfl : u = .null := by
      by_contra hne
      obtain ⟨w, hw⟩ := exists_withoutNulls hne (hfull name u hu)
      cases hnone.symm.trans hw
    refine Option.eq_none_iff_forall_ne_some.mpr fun w hlast => ?_
    have halike := hplace name .null hu
    rw [hlast, Option.map_some,
      laid_of_not_object hempty (snakeKeys_ne_null (hkept name w hlast).1)] at halike
    cases halike.eq_none_iff.mp rfl
  · rw [value?_named] at hv
    obtain ⟨u, hu, rfl⟩ := Option.map_eq_some_iff.mp hv
    exact hfull name u hu

end Config

namespace Settings

/-- A layer that is an object gives its members under the names of settings. -/
theorem layer_object (otherwise : Node → Except Failure Fields) (fields : Fields) :
    layer otherwise (.object fields) = .ok (named fields) := by
  cases fields <;> rfl

/-- Merged settings that are alike come to the same. -/
theorem ofLayers_congr {file : Node} {overrides overrides' : Fields}
    (h : ∀ base, layer membersOf file = .ok base →
      Alike (merged base overrides) (merged base overrides')) :
    ofLayers file (.object overrides) = ofLayers file (.object overrides') := by
  unfold ofLayers
  rw [layer_object, layer_object]
  cases hbase : layer membersOf file with
  | error failure => rfl
  | ok base =>
    have halike := h base hbase
    -- The source is one of the members, so the check for a missing source agrees too.
    have hsource : (Fields.get? (overlay base (named overrides)) "swagger_url").any Node.isTrue
        = (Fields.get? (overlay base (named overrides')) "swagger_url").any Node.isTrue := by
      unfold Fields.get?
      obtain ⟨hv, hw⟩ | ⟨v, w, hv, hw, hvw⟩ :=
        (alike_object_iff.mp halike (.text "swagger_url")).places
      · rw [hv, hw]
      · rw [hv, hw, Option.any_some, Option.any_some, hvw.isTrue_eq]
    simp only [bind, Except.bind, hsource, ofFields_congr halike]

/-- When nulls among overrides make no difference. Whatever the file, they make none exactly if no
null hides a value of the same name and no section has a null in it. If nothing is hidden, then they
make none for a given file exactly if every null stands in a section that the file has. And where
the merged settings are the same, so is what they come to, the errors included. -/
theorem ofLayers_withoutNulls (overrides : Fields) :
    ((∀ file base, layer membersOf file = .ok base →
        Alike (merged base overrides) (merged base (membersWithoutNulls overrides))) ↔
      (Node.object overrides).hidesNothing ∧
        ∀ name v, Fields.value? (named overrides) name = some v → HoldsNoNull v) ∧
    ((Node.object overrides).hidesNothing → ∀ file base, layer membersOf file = .ok base →
      (Alike (merged base overrides) (merged base (membersWithoutNulls overrides)) ↔
        Spared (some (.object base)) (.object (named overrides)))) ∧
    ∀ file, (∀ base, layer membersOf file = .ok base →
        Alike (merged base overrides) (merged base (membersWithoutNulls overrides))) →
      ofLayers file (.object overrides)
        = ofLayers file (.object (membersWithoutNulls overrides)) := by
  refine ⟨⟨fun h => ?_, fun h file base _ => ?_⟩, fun h _ base _ => ?_, fun _ => ofLayers_congr⟩
  · exact of_alike_merged_nil (h (.object []) [] rfl)
  · exact alike_merged_withoutNulls h.1 h.2 base
  · exact alike_merged_withoutNulls_iff h base

/-- A file with a source and a directory for hooks. -/
def hooksFile : Fields :=
  [(.text "swaggerUrl", .text "s"), (.text "hooks", .object [(.text "hooksDir", .text "h")])]

/-- Overrides with a null in a section, and another one in front of a value of the same name. -/
def nullOverrides : Fields :=
  [(.text "hooks", .object [(.text "hooks_dir", .null)]), (.text "output_dir", .null),
    (.text "outputDir", .text "./x")]

/-- The file has the section, so the nulls make no difference. -/
theorem ofLayers_withoutNulls_hooks :
    (Node.object nullOverrides).hidesNothing ∧
      (∀ base, layer membersOf (.object hooksFile) = .ok base →
        Spared (some (.object base)) (.object (named nullOverrides))) ∧
      ofLayers (.object hooksFile) (.object nullOverrides)
        = .ok { source := "s", output := "./x", hooks := { directory := "h" } } := by
  have hhides : (Node.object nullOverrides).hidesNothing := by decide
  have hspared : ∀ base, layer membersOf (.object hooksFile) = .ok base →
      Spared (some (.object base)) (.object (named nullOverrides)) := by
    intro base hbase
    rw [layer_object] at hbase
    obtain rfl := Except.ok.inj hbase
    change Spared _ (.object [(.text "hooks", .object [(.text "hooks_dir", .null)]),
      (.text "output_dir", .text "./x")])
    rw [spared_object_iff]
    -- The overrides have two members, the section and one plain setting.
    intro name v hv
    rw [Fields.value?_cons] at hv
    split at hv
    · rename_i hname
      obtain rfl := Option.some.inj hv
      rw [← Fields.value?_congr hname]
      change Spared (some (.object [(.text "hooks_dir", .text "h")])) _
      rw [spared_object_iff]
      intro name' v' hv'
      rw [Fields.value?_cons] at hv'
      split at hv'
      · obtain rfl := Option.some.inj hv'
        exact spared_of_leaf rfl _
      · cases hv'
    · rw [Fields.value?_cons] at hv
      split at hv
      · obtain rfl := Option.some.inj hv
        exact spared_of_leaf rfl _
      · cases hv
  obtain ⟨-, halike, hsame⟩ := ofLayers_withoutNulls nullOverrides
  refine ⟨hhides, hspared, hsame (.object hooksFile) fun base hbase => ?_⟩
  exact (halike hhides _ base hbase).mpr (hspared base hbase)

/-- A null is refused in a section that the file does not have, and a null behind a value of the
same name hides it. Without the null, the settings are the defaults or have the value. -/
theorem exists_null_that_matters :
    let file : Node := .object [(.text "swaggerUrl", .text "s")]
    let unset : Fields := [(.text "hooks", .object [(.text "hooks_dir", .null)])]
    let twice : Fields := [(.text "outputDir", .text "./x"), (.text "output_dir", .null)]
    ofLayers file (.object unset)
        = .error (.config (.invalid [{ location := ["hooks", "hooks_dir"], cause := .notText }])) ∧
      ofLayers file (.object (membersWithoutNulls unset)) = .ok { source := "s" } ∧
      ofLayers file (.object twice) = .ok { source := "s" } ∧
      ofLayers file (.object (membersWithoutNulls twice))
        = .ok { source := "s", output := "./x" } := by
  exact ⟨rfl, rfl, rfl, rfl⟩

end Settings

end ClientGen
