import ClientGen.Proofs.Document.Chains

/-!
# Trails of references

The pointers that a chain of references goes by, one after another. When every reference is a text,
a chain can end in two ways only.

* `Node.hasTextPointers`: every reference inside a node is a text.
* `Reference.Trail`: the pointers from an object to one that the chain comes to.
* `Reference.Breaks`: the chain comes to a pointer that names no object, or to one that it has come
  by before.
* `Reference.Arrives`: the chain comes to an object that is no reference.
* `Reference.breaks_or_arrives`: one of the two happens.
* `Reference.dereference_eq_none_iff`, `Reference.dereference_eq_object_iff`: they decide what is
  found at the end of the chain.
-/

namespace ClientGen

namespace Node

mutual

/-- Is every reference in the node a text? -/
def hasTextPointers : Node → Bool
  | .list items => itemsHaveTextPointers items
  | .object fields => fieldsHaveTextPointers fields
  | _ => true

/-- Is every reference in the items of a list a text? -/
def itemsHaveTextPointers : List Node → Bool
  | [] => true
  | v :: vs => v.hasTextPointers && itemsHaveTextPointers vs

/-- Is an object with these members a reference by a text only, and every reference in the members a
text? -/
def fieldsHaveTextPointers : List (Key × Node) → Bool
  | [] => true
  | (k, v) :: fs => (k ≠ .text refKey || v.text?.isSome) && v.hasTextPointers
      && fieldsHaveTextPointers fs

end

variable {v w : Node} {fields : Fields}

/-- Every reference in a list is a text exactly if every one in its items is. -/
theorem hasTextPointers_list_iff {items : List Node} :
    (Node.list items).hasTextPointers ↔ ∀ v ∈ items, v.hasTextPointers := by
  rw [hasTextPointers]
  induction items with
  | nil => simp [itemsHaveTextPointers]
  | cons v vs ih => simp [itemsHaveTextPointers, ih]

/-- Every reference in an object is a text exactly if its own is, and every one in its members. -/
theorem hasTextPointers_object_iff :
    (Node.object fields).hasTextPointers ↔
      ∀ f ∈ fields, (f.1 = .text refKey → f.2.text?.isSome) ∧ f.2.hasTextPointers := by
  rw [hasTextPointers]
  induction fields with
  | nil => simp [fieldsHaveTextPointers]
  | cons f fs ih =>
    rw [List.forall_mem_cons, ← ih]
    simp [fieldsHaveTextPointers, imp_iff_not_or]

/-- Every reference in a part is one of the whole. -/
theorem Part.hasTextPointers (h : Part v w) (hw : w.hasTextPointers) : v.hasTextPointers := by
  induction h with
  | item hmem => exact hasTextPointers_list_iff.mp hw _ hmem
  | member hmem => exact (hasTextPointers_object_iff.mp hw _ hmem).2
  | trans _ _ ih ih' => exact ih (ih' hw)

/-- What makes an object a reference is a text. -/
theorem exists_text_of_get? (h : (Node.object fields).hasTextPointers)
    (hget : Fields.get? fields refKey = some v) : ∃ pointer, v = .text pointer := by
  have htext := (hasTextPointers_object_iff.mp h _ (Fields.mem_of_get? hget)).1 rfl
  cases v with
  | text pointer => exact ⟨pointer, rfl⟩
  | _ => exact absurd htext Bool.false_ne_true

end Node

/-- What a pointer names has no other references than the document. -/
theorem Pointer.hasTextPointers_of_resolve {document node : Node} {pointer : String}
    (hdocument : document.hasTextPointers) (h : Pointer.resolve document pointer = some node) :
    node.hasTextPointers := by
  rcases eq_or_part_of_resolve h with rfl | hpart
  · exact hdocument
  · exact hpart.hasTextPointers hdocument

namespace Reference

/-- The references from an object lead by some pointers, the last one in front, to another object.
The same pointer can come up again. -/
inductive Trail (document : Node) (start : Fields) : List String → Fields → Prop
  /-- No reference. -/
  | here : Trail document start [] start
  /-- One more reference. -/
  | along {trail : List String} {fields found : Fields} {pointer : String} :
    Trail document start trail fields → Fields.get? fields refKey = some (.text pointer) →
    Pointer.resolve document pointer = some (.object found) →
    Trail document start (pointer :: trail) found

/-- The references from an object lead to a pointer that names no object, or that they have led by
before. -/
def Breaks (document : Node) (start : Fields) : Prop :=
  ∃ trail fields pointer, Trail document start trail fields ∧
    Fields.get? fields refKey = some (.text pointer) ∧
    (pointer ∈ trail ∨ ∀ found, Pointer.resolve document pointer ≠ some (.object found))

/-- The references from an object lead to an object that is no reference. -/
def Arrives (document : Node) (start target : Fields) : Prop :=
  ∃ trail, Trail document start trail target ∧ Fields.get? target refKey = none

variable {document node : Node} {start fields target : Fields} {trail : List String} {n : Nat}
  {s : Session}

/-! ## One of two ends -/

/-- Where a trail leads, every reference is a text, if this holds of the document and of the
start. -/
theorem Trail.hasTextPointers (hdocument : document.hasTextPointers)
    (hstart : (Node.object start).hasTextPointers) (h : Trail document start trail fields) :
    (Node.object fields).hasTextPointers := by
  cases h with
  | here => exact hstart
  | along _ _ hresolve => exact Pointer.hasTextPointers_of_resolve hdocument hresolve

/-- The pointers of a trail stand in the document or in the object at its start. -/
theorem Trail.subset_pointers (h : Trail document start trail fields) :
    trail ⊆ (Node.object start).pointers ++ document.pointers ∧
      (Node.object fields).pointers ⊆ (Node.object start).pointers ++ document.pointers := by
  induction h with
  | here => exact ⟨List.nil_subset _, List.subset_append_left _ _⟩
  | along _ hget hresolve ih =>
    refine ⟨List.cons_subset.mpr ⟨ih.2 ?_, ih.1⟩, ?_⟩
    · exact Node.mem_pointers (Fields.mem_of_get? hget)
    · exact List.subset_append_of_subset_right _ (Pointer.pointers_subset_of_resolve hresolve)

/-- A chain that has not ended yet has gone by any number of different pointers. -/
theorem exists_trail_or_end (hdocument : document.hasTextPointers)
    (hstart : (Node.object start).hasTextPointers) (length : Nat) :
    (∃ trail fields, Trail document start trail fields ∧ trail.Nodup ∧ trail.length = length) ∨
      Breaks document start ∨ ∃ target, Arrives document start target := by
  induction length with
  | zero => exact .inl ⟨[], start, .here, List.nodup_nil, rfl⟩
  | succ length ih =>
    obtain ⟨trail, fields, htrail, hnodup, rfl⟩ | hend := ih
    · -- The trail goes on by a new pointer, or this is where the chain ends.
      rcases hget : Fields.get? fields refKey with _ | value
      · exact .inr (.inr ⟨fields, trail, htrail, hget⟩)
      · obtain ⟨pointer, rfl⟩ :=
          Node.exists_text_of_get? (htrail.hasTextPointers hdocument hstart) hget
        by_cases hrepeated : pointer ∈ trail
        · exact .inr (.inl ⟨trail, fields, pointer, htrail, hget, .inl hrepeated⟩)
        · by_cases hobject : ∃ found, Pointer.resolve document pointer = some (.object found)
          · obtain ⟨found, hresolve⟩ := hobject
            refine .inl ⟨pointer :: trail, found, htrail.along hget hresolve, ?_, rfl⟩
            exact List.nodup_cons.mpr ⟨hrepeated, hnodup⟩
          · rw [not_exists] at hobject
            exact .inr (.inl ⟨trail, fields, pointer, htrail, hget, .inr hobject⟩)
    · exact .inr hend

/-- A chain breaks or arrives, since there are only so many pointers to go by. -/
theorem breaks_or_arrives (hdocument : document.hasTextPointers)
    (hstart : (Node.object start).hasTextPointers) :
    Breaks document start ∨ ∃ target, Arrives document start target := by
  have hall := exists_trail_or_end hdocument hstart
    (((Node.object start).pointers ++ document.pointers).length + 1)
  refine hall.resolve_left ?_
  rintro ⟨trail, fields, htrail, hnodup, hlength⟩
  have hle := (hnodup.subperm htrail.subset_pointers.1).length_le
  omega

/-! ## What is found there -/

/-- From the end of a trail the references lead on to where they lead from its start, and the steps
from there are fewer than from any pointer before. -/
theorem Trail.leads (h : Trail document start trail fields)
    (hleads : Leads document n (.object start) node) :
    ∃ m, Leads document m (.object fields) node ∧
      ∀ p ∈ trail, ∃ found earlier, Pointer.resolve document p = some (.object found) ∧
        Leads document earlier (.object found) node ∧ m ≤ earlier := by
  induction h with
  | here => exact ⟨n, hleads, by simp⟩
  | @along trail fields found pointer _ hget hresolve ih =>
    obtain ⟨m, hm, hearlier⟩ := ih
    cases hm with
    | here hnone => simp [Node.get?, hget] at hnone
    | @along m _ found' pointer' _ hget' hresolve' hrest =>
      obtain rfl := Node.text.inj (Option.some.inj (hget.symm.trans hget'))
      obtain rfl := Node.object.inj (Option.some.inj (hresolve.symm.trans hresolve'))
      refine ⟨m, hrest, List.forall_mem_cons.mpr ⟨⟨found, m, hresolve, hrest, Nat.le_refl _⟩, ?_⟩⟩
      -- The pointers before are one step farther from the end than they were.
      intro p hp
      obtain ⟨found', earlier, hresolve', hleads', hle⟩ := hearlier p hp
      exact ⟨found', earlier, hresolve', hleads', by omega⟩

/-- Where a chain breaks, references lead nowhere. -/
theorem Breaks.not_leads (h : Breaks document start) : ¬ Leads document n (.object start) node := by
  obtain ⟨trail, fields, pointer, htrail, hget, hend⟩ := h
  intro hleads
  obtain ⟨m, hm, hearlier⟩ := htrail.leads hleads
  cases hm with
  | here hnone => simp [Node.get?, hget] at hnone
  | along hget' hresolve hrest =>
    obtain rfl := Node.text.inj (Option.some.inj (hget.symm.trans hget'))
    rcases hend with hmem | hnone
    · -- The pointer is both one and several steps away from the end.
      obtain ⟨found', earlier, hresolve', hleads', hle⟩ := hearlier _ hmem
      obtain rfl := Node.object.inj (Option.some.inj (hresolve.symm.trans hresolve'))
      have := hrest.steps_unique hleads'
      omega
    · exact hnone _ hresolve

/-- Where references lead from the end of a trail, they lead from its start. -/
theorem Trail.leads_of_leads (h : Trail document start trail fields)
    (hleads : Leads document n (.object fields) node) :
    ∃ m, Leads document m (.object start) node := by
  induction h generalizing n with
  | here => exact ⟨n, hleads⟩
  | along _ hget hresolve ih => exact ih (hleads.along hget hresolve)

/-- Where references lead from an object on a trail, the trail arrives. -/
theorem Leads.arrives {origin : Node} (h : Leads document n origin node)
    (htrail : Trail document start trail fields) (horigin : origin = .object fields) :
    ∃ target, node = .object target ∧ Arrives document start target := by
  induction h generalizing trail fields with
  | here hnone =>
    subst horigin
    exact ⟨fields, rfl, trail, htrail, hnone⟩
  | along hget hresolve _ ih =>
    obtain rfl := Node.object.inj horigin
    exact ih (htrail.along hget hresolve) rfl

/-- References arrive at an object exactly if they lead there in some number of steps. -/
theorem arrives_iff_leads :
    Arrives document start target ↔ ∃ n, Leads document n (.object start) (.object target) := by
  constructor
  · rintro ⟨trail, htrail, hnone⟩
    exact htrail.leads_of_leads (.here hnone)
  · rintro ⟨n, hleads⟩
    obtain ⟨target', heq, harrives⟩ := hleads.arrives .here rfl
    exact Node.object.inj heq ▸ harrives

/-- An object is found at the end of a chain exactly when the chain arrives there. -/
theorem dereference_eq_object_iff (hs : s.Faithful document) :
    (dereference document (.object start) s).1 = some (.object target) ↔
      Arrives document start target := by
  rw [dereference_eq_some_iff hs, arrives_iff_leads]

/-- If every reference is a text, then nothing is found at the end of a chain exactly when the chain
breaks. -/
theorem dereference_eq_none_iff (hdocument : document.hasTextPointers)
    (hstart : (Node.object start).hasTextPointers) (hs : s.Faithful document) :
    (dereference document (.object start) s).1 = none ↔ Breaks document start := by
  constructor
  · intro hnone
    refine (breaks_or_arrives hdocument hstart).resolve_right ?_
    rintro ⟨target, harrives⟩
    rw [(dereference_eq_object_iff hs).mpr harrives] at hnone
    cases hnone
  · intro hbreaks
    refine Option.eq_none_iff_forall_ne_some.mpr fun node hnode => ?_
    obtain ⟨n, hleads⟩ := (dereference_eq_some_iff hs).mp hnode
    exact hbreaks.not_leads hleads

end Reference

end ClientGen
