import Mathlib.Tactic.SplitIfs
import ClientGen.Schema.Expansion

/-!
# Reachable schemas

The schemas that the expansion of a schema can come to, by going down or along references.

* `Node.Part`: a node stands inside another one. It is then smaller, and so are its pointers fewer.
* `Node.members_induction`: induction on the values of the members of objects.
* `Schema.Reaches`: a schema can be come to from another one.
* `Schema.Reaches.pointer_mem`: whatever can be come to refers only to pointers that stand in the
  document or in the schema that it starts from.
-/

namespace ClientGen

namespace Fields

variable {fields : Fields} {name : String} {value : Node}

/-- A value that is found under a text key is that of a member with this very key. -/
theorem mem_of_get? (h : Fields.get? fields name = some value) :
    (Key.text name, value) ∈ fields := by
  obtain ⟨⟨key, v⟩, hfind, rfl⟩ := Option.map_eq_some_iff.mp h
  have hsame : key.canonical = (Key.text name).canonical := by
    simpa [Key.same] using List.find?_some hfind
  -- Keys of other kinds count as numbers or as null, never as texts.
  have hkey : key = .text name := by
    cases key with
    | text s => exact hsame
    | real x =>
      simp only [Key.canonical] at hsame
      split at hsame <;> simp at hsame
    | _ => simp [Key.canonical] at hsame
  exact hkey ▸ List.mem_of_find?_eq_some hfind

/-- A value that is put is found among the members, all others were there before. -/
theorem mem_put {key k : Key} {v : Node} (h : (k, v) ∈ Fields.put fields key value) :
    v = value ∨ (k, v) ∈ fields := by
  induction fields with
  | nil => exact .inl (by simpa [Fields.put] using congrArg Prod.snd (List.mem_singleton.mp h))
  | cons field rest ih =>
    obtain ⟨key', v'⟩ := field
    rw [Fields.put] at h
    split at h
    · rcases List.mem_cons.mp h with h | h
      · exact .inl (congrArg Prod.snd h)
      · exact .inr (List.mem_cons_of_mem _ h)
    · rcases List.mem_cons.mp h with h | h
      · exact .inr (h ▸ List.mem_cons_self)
      · exact (ih h).imp_right (List.mem_cons_of_mem _)

/-- The values of an update are those of the one object or of the other. -/
theorem exists_mem_of_mem_update {additions : Fields} {k : Key} {v : Node}
    (h : (k, v) ∈ Fields.update fields additions) :
    ∃ key, (key, v) ∈ fields ∨ (key, v) ∈ additions := by
  -- The additions are put one after another, so the fields are those after the first ones.
  unfold Fields.update at h
  induction additions generalizing fields with
  | nil => exact ⟨k, .inl h⟩
  | cons addition rest ih =>
    obtain ⟨key, hkey | hkey⟩ := ih h
    · rcases mem_put hkey with rfl | hkey
      · exact ⟨addition.1, .inr List.mem_cons_self⟩
      · exact ⟨key, .inl hkey⟩
    · exact ⟨key, .inr (List.mem_cons_of_mem _ hkey)⟩

end Fields

namespace Node

/-- The first node stands inside the second one. -/
inductive Part : Node → Node → Prop
  /-- The items of a list stand inside it. -/
  | item {items : List Node} {v : Node} : v ∈ items → Part v (.list items)
  /-- The values of the members of an object stand inside it. -/
  | member {fields : Fields} {k : Key} {v : Node} : (k, v) ∈ fields → Part v (.object fields)
  /-- What stands inside a part stands inside the whole. -/
  | trans {u v w : Node} : Part u v → Part v w → Part u w

variable {v w : Node}

theorem size_pos (v : Node) : 0 < v.size := by
  cases v <;> simp [size]

/-- A part is smaller than the whole. -/
theorem Part.size_lt (h : Part v w) : v.size < w.size := by
  induction h with
  -- A part is smaller than the list or object that holds it, wherever it stands there.
  | @item items v h =>
    rw [size]
    induction items with
    | nil => simp at h
    | cons x xs ih =>
      rw [sizeOfItems]
      rcases List.mem_cons.mp h with rfl | h
      · omega
      · have := ih h
        omega
  | @member fields k v h =>
    rw [size]
    induction fields with
    | nil => simp at h
    | cons x xs ih =>
      rw [sizeOfFields]
      rcases List.mem_cons.mp h with rfl | h
      · dsimp only
        omega
      · have := ih h
        omega
  | trans _ _ ih ih' => exact Nat.lt_trans ih ih'

/-- What holds of objects whose members it holds of, and of all that is no object, holds of all
nodes. -/
theorem members_induction {P : Node → Prop}
    (object : ∀ fields : Fields, (∀ k v, (k, v) ∈ fields → P v) → P (.object fields))
    (leaf : ∀ v : Node, v.isObject = false → P v) (v : Node) : P v := by
  induction hn : v.size using Nat.strongRecOn generalizing v with
  | ind n ih =>
    cases v with
    | object fields =>
      refine object fields fun k w hmem => ih w.size ?_ w rfl
      exact hn ▸ (Part.member hmem).size_lt
    | _ => exact leaf _ rfl

/-- The pointers of the first member, its own one included, stand before those of the others. -/
theorem exists_pointersOfFields_cons (field : Key × Node) (fields : Fields) :
    ∃ own, pointersOfFields (field :: fields)
        = own ++ field.2.pointers ++ pointersOfFields fields ∧
      ∀ pointer, field = (.text refKey, .text pointer) → pointer ∈ own := by
  refine ⟨_, by rw [pointersOfFields.eq_def], ?_⟩
  rintro pointer rfl
  simp

/-- The pointers of a part are pointers of the whole. -/
theorem Part.pointers_subset (h : Part v w) : v.pointers ⊆ w.pointers := by
  induction h with
  -- The pointers of a list or object are those of its parts, one after another.
  | @item items v h =>
    rw [pointers]
    induction items with
    | nil => simp at h
    | cons x xs ih =>
      rw [pointersOfItems]
      rcases List.mem_cons.mp h with rfl | h
      · exact List.subset_append_left _ _
      · exact List.Subset.trans (ih h) (List.subset_append_right _ _)
  | @member fields k v h =>
    rw [pointers]
    induction fields with
    | nil => simp at h
    | cons x xs ih =>
      obtain ⟨own, heq, -⟩ := exists_pointersOfFields_cons x xs
      rw [heq]
      rcases List.mem_cons.mp h with rfl | h
      · exact List.Subset.trans (List.subset_append_right _ _) (List.subset_append_left _ _)
      · exact List.Subset.trans (ih h) (List.subset_append_right _ _)
  | trans _ _ ih ih' => exact List.Subset.trans ih ih'

/-- Fewer members hold fewer pointers. -/
theorem pointers_subset_of_sublist {fs gs : Fields} (h : fs.Sublist gs) :
    (Node.object fs).pointers ⊆ (Node.object gs).pointers := by
  rw [pointers, pointers]
  induction h with
  | slnil => exact List.Subset.refl _
  | @cons fs gs x _ ih =>
    obtain ⟨own, heq, -⟩ := exists_pointersOfFields_cons x gs
    rw [heq]
    exact List.Subset.trans ih (List.subset_append_right _ _)
  | @cons_cons fs gs x _ ih =>
    rw [pointersOfFields.eq_def, pointersOfFields.eq_def]
    exact List.append_subset.mpr
      ⟨List.subset_append_left _ _, List.Subset.trans ih (List.subset_append_right _ _)⟩

/-- A text under the reference key is a pointer of the object. -/
theorem mem_pointers {fields : Fields} {pointer : String}
    (h : (Key.text refKey, Node.text pointer) ∈ fields) :
    pointer ∈ (Node.object fields).pointers := by
  rw [pointers]
  induction fields with
  | nil => simp at h
  | cons x xs ih =>
    obtain ⟨own, heq, hown⟩ := exists_pointersOfFields_cons x xs
    rw [heq]
    rcases List.mem_cons.mp h with h | h
    · exact List.mem_append_left _ (List.mem_append_left _ (hown pointer h.symm))
    · exact List.mem_append_right _ (ih h)

end Node

/-- What a pointer names stands inside the document, or is the document. -/
theorem Pointer.eq_or_part_of_resolve {document node : Node} {pointer : String}
    (h : Pointer.resolve document pointer = some node) :
    node = document ∨ Node.Part node document := by
  -- One step goes down to a member or an item.
  have hdown : ∀ {v w : Node} {step : List Char}, Pointer.down v step = some w →
      Node.Part w v := by
    intro v w step hw
    unfold Pointer.down at hw
    dsimp only at hw
    split at hw
    · exact .member (Fields.mem_of_get? hw)
    · obtain ⟨position, -, hitem⟩ := Option.bind_eq_some_iff.mp hw
      unfold Pointer.itemAt? at hitem
      refine .item ?_
      split at hitem
      · exact List.mem_of_getElem? hitem
      · split at hitem
        · exact List.mem_of_getElem? hitem
        · simp at hitem
    · simp at hw
  -- And the steps of a pointer are taken one after another.
  have hfold : ∀ (steps : List (List Char)) (v : Node), steps.foldlM Pointer.down v = some node →
      node = v ∨ Node.Part node v := by
    intro steps
    induction steps with
    | nil => exact fun v hv => .inl (by simpa using hv.symm)
    | cons step steps ih =>
      intro v hv
      rw [List.foldlM_cons] at hv
      obtain ⟨w, hw, hrest⟩ := Option.bind_eq_some_iff.mp hv
      rcases ih w hrest with rfl | hpart
      · exact .inr (hdown hw)
      · exact .inr (hpart.trans (hdown hw))
  unfold Pointer.resolve at h
  split at h
  · exact hfold _ _ h
  · simp at h

/-- What a pointer names holds only pointers of the document. -/
theorem Pointer.pointers_subset_of_resolve {document node : Node} {pointer : String}
    (h : Pointer.resolve document pointer = some node) : node.pointers ⊆ document.pointers := by
  rcases eq_or_part_of_resolve h with heq | hpart
  · exact heq ▸ List.Subset.refl _
  · exact hpart.pointers_subset

/-- What a pointer names is no larger than the document. -/
theorem Pointer.size_le_of_resolve {document node : Node} {pointer : String}
    (h : Pointer.resolve document pointer = some node) : node.size ≤ document.size := by
  rcases eq_or_part_of_resolve h with heq | hpart
  · exact Nat.le_of_eq (congrArg Node.size heq)
  · exact Nat.le_of_lt hpart.size_lt

namespace Schema

variable {document : Node} {root schema : Fields}

/-- What is found under a text key stands inside the schema. -/
theorem part_of_get? {key : String} {value : Node} (h : Fields.get? schema key = some value) :
    Node.Part value (.object schema) :=
  .member (Fields.mem_of_get? h)

theorem part_of_mem_members {key : String} {part : Fields} (h : part ∈ members schema key) :
    Node.Part (.object part) (.object schema) := by
  -- A member is an item of the list that stands under the key.
  unfold members at h
  split at h
  · rename_i items hitems
    obtain ⟨item, hitem, hobject⟩ := List.mem_filterMap.mp h
    obtain rfl : item = .object part := by
      cases item <;> simp_all [Node.object?]
    exact .trans (.item hitem) (part_of_get? hitems)
  · simp at h

theorem part_of_mem_choices {option : Fields} (h : option ∈ (choices schema).2) :
    Node.Part (.object option) (.object schema) := by
  unfold choices at h
  split at h
  · exact part_of_mem_members h
  · exact part_of_mem_members h

theorem part_of_mem_fieldsUnder {key : String} {k : Key} {value : Node}
    (h : (k, value) ∈ fieldsUnder schema key) : Node.Part value (.object schema) := by
  unfold fieldsUnder at h
  rcases hget : Fields.get? schema key with _ | node
  · simp [hget] at h
  · rw [hget] at h
    cases node with
    | object fields => exact .trans (.member h) (part_of_get? hget)
    | _ => simp [Node.fields] at h

/-- The items of a list are given by a part of the schema, or by the empty schema. -/
theorem items_eq_nil_or_part (schema : Fields) :
    items schema = [] ∨ Node.Part (.object (items schema)) (.object schema) := by
  unfold items
  split
  · exact .inr (part_of_get? ‹_›)
  · exact .inl rfl

/-- The schema of the items of a list is smaller than that of the list. -/
theorem size_items_lt (h : kind schema = .array) :
    (Node.object (items schema)).size < (Node.object schema).size := by
  rcases items_eq_nil_or_part schema with hnil | hpart
  · cases schema with
    | nil => exact absurd h (by decide)
    | cons field rest =>
      have hpos := field.2.size_pos
      rw [hnil]
      simp only [Node.size, Node.sizeOfFields]
      omega
  · exact hpart.size_lt

/-- A schema is a reference if it has a pointer. -/
theorem exists_pointer_of_reference (h : kind schema = .reference) :
    ∃ pointer, pointer? schema = some pointer := by
  unfold kind at h
  dsimp only at h
  split at h
  · exact Option.isSome_iff_exists.mp ‹_›
  · split_ifs at h

/-- The pointer of a reference is one of its pointers. -/
theorem mem_pointers_of_pointer? {pointer : String} (h : pointer? schema = some pointer) :
    pointer ∈ (Node.object schema).pointers := by
  obtain ⟨node, hget, htext⟩ := Option.bind_eq_some_iff.mp h
  obtain rfl : node = .text pointer := by
    cases node <;> simp_all [Node.text?]
  exact Node.mem_pointers (Fields.mem_of_get? hget)

/-- The schemas that the expansion of a schema can come to, by going down or along references. -/
inductive Reaches (document : Node) (root : Fields) : Fields → Prop
  /-- The schema itself. -/
  | root : Reaches document root root
  /-- The schema that a pointer names. -/
  | target {schema target : Fields} {pointer : String} : Reaches document root schema →
    pointer? schema = some pointer → Pointer.resolve document pointer = some (.object target) →
    Reaches document root target
  /-- A part of a schema put together from several. -/
  | part {schema part : Fields} : Reaches document root schema →
    part ∈ members schema Expander.allOfKey → Reaches document root part
  /-- What a schema put together from several says itself. -/
  | own {schema : Fields} : Reaches document root schema →
    Reaches document root (schema.filter fun f => !f.1.same (.text Expander.allOfKey))
  /-- A member of a choice. -/
  | option {schema option : Fields} : Reaches document root schema →
    option ∈ (choices schema).2 → Reaches document root option
  /-- The schema of the items of a list. -/
  | items {schema : Fields} : Reaches document root schema → Reaches document root (items schema)
  /-- The schema of the values under free keys. -/
  | value {schema value : Fields} : Reaches document root schema →
    Fields.get? schema "additionalProperties" = some (.object value) → Reaches document root value
  /-- The schema of a property. -/
  | property {schema property : Fields} {key : Key} : Reaches document root schema →
    (key, .object property) ∈ fieldsUnder schema "properties" → Reaches document root property

namespace Reaches

/-- Whatever can be come to holds only pointers of the document and of the schema at the start. -/
theorem pointers_subset (h : Reaches document root schema) :
    (Node.object schema).pointers ⊆ document.pointers ++ (Node.object root).pointers := by
  induction h with
  | root => exact List.subset_append_right _ _
  | target _ _ hresolve _ =>
    -- Behind a reference one is inside the document again, wherever one came from.
    exact List.Subset.trans (Pointer.pointers_subset_of_resolve hresolve)
      (List.subset_append_left _ _)
  | part _ hmem ih => exact List.Subset.trans (part_of_mem_members hmem).pointers_subset ih
  | own _ ih => exact List.Subset.trans (Node.pointers_subset_of_sublist List.filter_sublist) ih
  | option _ hmem ih => exact List.Subset.trans (part_of_mem_choices hmem).pointers_subset ih
  | @items schema _ ih =>
    rcases items_eq_nil_or_part schema with hnil | hpart
    · rw [hnil, Node.pointers, Node.pointersOfFields]
      exact List.nil_subset _
    · exact List.Subset.trans hpart.pointers_subset ih
  | value _ hget ih => exact List.Subset.trans (part_of_get? hget).pointers_subset ih
  | property _ hmem ih => exact List.Subset.trans (part_of_mem_fieldsUnder hmem).pointers_subset ih

/-- Whatever can be come to refers only to such a pointer. -/
theorem pointer_mem (h : Reaches document root schema) {pointer : String}
    (hp : pointer? schema = some pointer) :
    pointer ∈ document.pointers ++ (Node.object root).pointers :=
  h.pointers_subset (mem_pointers_of_pointer? hp)

end Reaches

end Schema

end ClientGen
