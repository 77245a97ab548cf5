import ClientGen.Proofs.Schema.Reach

/-!
# Heights

How deep nodes are nested, references not followed.

* `Node.height`: the number of nodes on the longest way down into a node.
* `Node.Part.height_lt`: a part is nested less deep than the whole.
* `Schema.height_of_mem_members`, `Schema.height_of_mem_fieldsUnder`: what stands in a list or an
  object under a key of a schema is nested less deep by two.
-/

namespace ClientGen

namespace Node

mutual

/-- How deep a node is nested: the number of nodes on the longest way down, itself included. -/
def height : Node → Nat
  | .list items => heightOfItems items + 1
  | .object fields => heightOfFields fields + 1
  | _ => 1

/-- How deep the items of a list are nested. -/
def heightOfItems : List Node → Nat
  | [] => 0
  | x :: xs => max x.height (heightOfItems xs)

/-- How deep the members of an object are nested. -/
def heightOfFields : List (Key × Node) → Nat
  | [] => 0
  | (_, v) :: fs => max v.height (heightOfFields fs)

end

variable {v w : Node}

theorem height_pos (v : Node) : 0 < v.height := by
  cases v <;> simp [height]

/-- The height of an object whose members are all of at most some height. -/
theorem heightOfFields_le_iff {fields : Fields} {n : Nat} :
    heightOfFields fields ≤ n ↔ ∀ f ∈ fields, f.2.height ≤ n := by
  induction fields with
  | nil => simp [heightOfFields]
  | cons f fs ih => rw [heightOfFields, Nat.max_le, ih, List.forall_mem_cons]

/-- The height of a list whose items are all of at most some height. -/
theorem heightOfItems_le_iff {items : List Node} {n : Nat} :
    heightOfItems items ≤ n ↔ ∀ x ∈ items, x.height ≤ n := by
  induction items with
  | nil => simp [heightOfItems]
  | cons x xs ih => rw [heightOfItems, Nat.max_le, ih, List.forall_mem_cons]

/-- A part is nested less deep than the whole. -/
theorem Part.height_lt (h : Part v w) : v.height < w.height := by
  induction h with
  | item h =>
    rw [height]
    exact Nat.lt_succ_of_le (heightOfItems_le_iff.mp (Nat.le_refl _) _ h)
  | member h =>
    rw [height]
    exact Nat.lt_succ_of_le (heightOfFields_le_iff.mp (Nat.le_refl _) _ h)
  | trans _ _ ih ih' => exact Nat.lt_trans ih ih'

/-- Fewer members are not nested deeper. -/
theorem height_le_of_sublist {fs gs : Fields} (h : fs.Sublist gs) :
    (Node.object fs).height ≤ (Node.object gs).height := by
  rw [height, height]
  refine Nat.succ_le_succ (heightOfFields_le_iff.mpr fun f hf => ?_)
  exact heightOfFields_le_iff.mp (Nat.le_refl _) f (h.subset hf)

end Node

namespace Schema

variable {schema : Fields}

/-- An object in the list under a key is nested less deep by two: the list is in between. -/
theorem height_of_mem_members {key : String} {part : Fields} (h : part ∈ members schema key) :
    (Node.object part).height + 2 ≤ (Node.object schema).height := by
  unfold members at h
  split at h
  · rename_i items hitems
    obtain ⟨item, hitem, hobject⟩ := List.mem_filterMap.mp h
    obtain rfl : item = .object part := by
      cases item <;> simp_all [Node.object?]
    have hpart : Node.Part (.object part) (.list items) := .item hitem
    have hin := hpart.height_lt
    have hout := (part_of_get? hitems).height_lt
    omega
  · simp at h

/-- A member of a choice is nested less deep by two. -/
theorem height_of_mem_choices {option : Fields} (h : option ∈ (choices schema).2) :
    (Node.object option).height + 2 ≤ (Node.object schema).height := by
  unfold choices at h
  split at h
  · exact height_of_mem_members h
  · exact height_of_mem_members h

/-- What stands in the object under a key is nested less deep by two. -/
theorem height_of_mem_fieldsUnder {key : String} {k : Key} {value : Node}
    (h : (k, value) ∈ fieldsUnder schema key) :
    value.height + 2 ≤ (Node.object schema).height := by
  unfold fieldsUnder at h
  rcases hget : Fields.get? schema key with _ | node
  · simp [hget] at h
  · rw [hget] at h
    cases node with
    | object fields =>
      have hpart : Node.Part value (.object fields) := .member h
      have hin := hpart.height_lt
      have hout := (part_of_get? hget).height_lt
      omega
    | _ => simp [Node.fields] at h

/-- The schema of the items of a list is nested less deep than that of the list. -/
theorem height_items_lt (h : kind schema = .array) :
    (Node.object (items schema)).height < (Node.object schema).height := by
  rcases items_eq_nil_or_part schema with hnil | hpart
  · cases schema with
    | nil => exact absurd h (by decide)
    | cons field rest =>
      have hpos := field.2.height_pos
      rw [hnil]
      simp only [Node.height, Node.heightOfFields]
      omega
  · exact hpart.height_lt

end Schema

end ClientGen
