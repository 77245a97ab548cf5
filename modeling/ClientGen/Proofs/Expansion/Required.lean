import Mathlib.Data.List.Perm.Subperm
import ClientGen.Proofs.Expansion.Outcome

/-!
# Required names that cannot be read

A declaration that reads required names which cannot be read always fails, however deep inside the
parts of a schema they stand: the bounds on chains of references and on parts within parts leave no
part out.

* `Schema.Trail`: a way from a schema to one that contributes to it, with the pointers on it.
* `Schema.Trail.exists_nodup`: there is one on which no pointer comes twice.
* `Expander.admits_merge_of_contributes`: putting a schema together comes to the end of the way.
* `Expander.resolve_of_reads`: so declaring the schema under a free name fails.
-/

namespace ClientGen

namespace Schema

variable {document : Node} {schema part : Fields} {pointers : List String}

/-- A way from a schema to another one, behind references and through parts of parts, with the
pointers that are followed. -/
inductive Trail (document : Node) : Fields → List String → Fields → Prop
  /-- The end of the way. -/
  | stop {schema : Fields} : pointer? schema = none → kind schema ≠ .allOf →
    Trail document schema [] schema
  /-- A reference is followed. -/
  | follow {schema found part : Fields} {pointer : String} {pointers : List String} :
    pointer? schema = some pointer → Pointer.resolve document pointer = some (.object found) →
    Trail document found pointers part → Trail document schema (pointer :: pointers) part
  /-- What a schema put together from several says itself is the end of the way. -/
  | own {schema : Fields} : kind schema = .allOf →
    Trail document schema [] (Schema.own schema)
  /-- A listed part is entered. -/
  | enter {schema member part : Fields} {pointers : List String} : kind schema = .allOf →
    member ∈ members schema Expander.allOfKey → Trail document member pointers part →
    Trail document schema pointers part

/-- What a schema put together from several says itself is not put together from several. -/
theorem kind_own_ne_allOf (schema : Fields) : kind (own schema) ≠ .allOf := by
  have hget : Fields.get? (own schema) "allOf" = none := by
    rw [Fields.get?, Fields.value?, Option.map_eq_none_iff, List.find?_eq_none]
    intro f hf hsame
    have hother := (List.mem_filter.mp hf).2
    rw [Expander.allOfKey, hsame] at hother
    exact absurd hother (by decide)
  have hmembers : members (own schema) "allOf" = [] := by
    rw [members, hget]
  unfold kind
  dsimp only
  rw [hmembers]
  split_ifs with href hlisted <;> simp_all

/-- A schema put together from several is no reference. -/
theorem pointer?_eq_none_of_allOf (h : kind schema = .allOf) : pointer? schema = none := by
  unfold kind at h
  dsimp only at h
  split at h
  · cases h
  · rename_i hpointer
    simpa using hpointer

theorem Leads.pointer?_eq_none (h : Leads document schema part) : pointer? part = none := by
  induction h with
  | here hnone => exact hnone
  | along _ _ _ ih => exact ih

/-- A way goes on behind the references in front of it. -/
theorem Leads.trail {target : Fields} (h : Leads document schema target)
    (htrail : Trail document target pointers part) :
    ∃ pointers', Trail document schema pointers' part := by
  induction h with
  | here => exact ⟨pointers, htrail⟩
  | along hpointer hresolve _ ih =>
    obtain ⟨pointers', htrail'⟩ := ih htrail
    exact ⟨_, .follow hpointer hresolve htrail'⟩

/-- There is a way to every schema that contributes. -/
theorem Contributes.exists_trail (h : Contributes document schema part)
    (hkind : kind schema = .allOf) : ∃ pointers, Trail document schema pointers part := by
  induction h with
  | part hpart hother =>
    cases hpart with
    | own => exact ⟨[], .own hkind⟩
    | listed hmember hleads =>
      obtain ⟨pointers, htrail⟩ := hleads.trail (.stop hleads.pointer?_eq_none hother)
      exact ⟨pointers, .enter hkind hmember htrail⟩
  -- The trail of the inner `allOf` is entered through the part of the outer one.
  | inner hmiddle hinner _ ih =>
    obtain ⟨pointers, htrail⟩ := ih hinner
    cases hmiddle with
    | own => exact absurd hinner (kind_own_ne_allOf _)
    | listed hmember hleads =>
      obtain ⟨pointers', htrail'⟩ := hleads.trail htrail
      exact ⟨pointers', .enter hkind hmember htrail'⟩

namespace Trail

/-- A way ends at a schema that is neither a reference nor put together from several. -/
theorem eq_of_kind_ne (h : Trail document schema pointers part) (hpointer : pointer? schema = none)
    (hkind : kind schema ≠ .allOf) : schema = part := by
  cases h with
  | stop => rfl
  | follow hfirst => simp [hpointer] at hfirst
  | own hall => exact absurd hall hkind
  | enter hall => exact absurd hall hkind

/-- A way goes on from what any of its pointers names. -/
theorem split {before after : List String} {pointer : String}
    (h : Trail document schema (before ++ pointer :: after) part) :
    ∃ found, Pointer.resolve document pointer = some (.object found) ∧
      Trail document found after part := by
  generalize hpointers : before ++ pointer :: after = pointers at h
  induction h generalizing before with
  | stop => simp at hpointers
  | own => simp at hpointers
  | enter _ _ _ ih => exact ih hpointers
  | follow _ hresolve hrest ih =>
    cases before with
    | nil =>
      obtain ⟨rfl, rfl⟩ := List.cons.inj hpointers
      exact ⟨_, hresolve, hrest⟩
    | cons p before => exact ih (List.cons.inj hpointers).2

/-- There is a way on which no pointer comes twice: what lies between the two is left out. -/
theorem exists_nodup (h : Trail document schema pointers part) :
    ∃ pointers', Trail document schema pointers' part ∧ pointers'.Nodup := by
  induction h with
  | stop hpointer hkind => exact ⟨[], .stop hpointer hkind, List.nodup_nil⟩
  | own hkind => exact ⟨[], .own hkind, List.nodup_nil⟩
  | enter hkind hmember _ ih =>
    obtain ⟨pointers, htrail, hnodup⟩ := ih
    exact ⟨pointers, .enter hkind hmember htrail, hnodup⟩
  | @follow schema found part pointer _ hpointer hresolve _ ih =>
    obtain ⟨pointers, htrail, hnodup⟩ := ih
    -- If the pointer comes again, the way goes on from its later place.
    by_cases hmem : pointer ∈ pointers
    · obtain ⟨before, after, rfl⟩ := List.append_of_mem hmem
      obtain ⟨found', hresolve', htrail'⟩ := htrail.split
      refine ⟨pointer :: after, .follow hpointer hresolve' htrail', ?_⟩
      exact (List.nodup_append.mp hnodup).2.1
    · exact ⟨pointer :: pointers, .follow hpointer hresolve htrail,
        List.nodup_cons.mpr ⟨hmem, hnodup⟩⟩

/-- Inside the document, all pointers on a way stand in the document. -/
theorem subset_pointers (h : Trail document schema pointers part)
    (hschema : (Node.object schema).pointers ⊆ document.pointers) :
    pointers ⊆ document.pointers := by
  induction h with
  | stop => exact List.nil_subset _
  | own => exact List.nil_subset _
  | enter _ hmember _ ih =>
    exact ih (List.Subset.trans (part_of_mem_members hmember).pointers_subset hschema)
  | follow hpointer hresolve _ ih =>
    exact List.cons_subset.mpr ⟨hschema (mem_pointers_of_pointer? hpointer),
      ih (Pointer.pointers_subset_of_resolve hresolve)⟩

/-- All pointers on a way but the first one stand in the document. -/
theorem tail_subset (h : Trail document schema pointers part) :
    pointers.tail ⊆ document.pointers := by
  induction h with
  | stop => exact List.nil_subset _
  | own => exact List.nil_subset _
  | enter _ _ _ ih => exact ih
  | follow _ hresolve hrest _ =>
    exact hrest.subset_pointers (Pointer.pointers_subset_of_resolve hresolve)

theorem length_le (h : Trail document schema pointers part) (hnodup : pointers.Nodup) :
    pointers.length ≤ document.pointers.length + 1 := by
  have htail := (List.Nodup.subperm hnodup.tail h.tail_subset).length_le
  rw [List.length_tail] at htail
  omega

end Trail

end Schema

namespace Expander

open Expansion Schema

variable {e : Expander} {schema part : Fields} {pointers chain : List String}

/-- The way goes on from a schema that is no reference, found with a chain of which no pointer comes
again. Either it is the given schema, or one of the document and some pointers nearer to the end. -/
structure Onward (e : Expander) (part schema : Fields) (pointers : List String) (target : Fields)
    (chain : List String) (rest : List String) : Prop where
  /-- The way goes on. -/
  trail : Trail e.document target rest part
  /-- The schema is no reference. -/
  pointer? : Schema.pointer? target = none
  /-- No pointer comes twice. -/
  nodup : rest.Nodup
  /-- No pointer is on the chain. -/
  fresh : ∀ p ∈ rest, p ∉ chain
  /-- Nothing was followed, or the end is nearer. -/
  nearer : (target = schema ∧ rest = pointers) ∨
    (rest.length < pointers.length ∧ (Node.object target).size ≤ e.document.size)

/-- From a smaller schema the way goes on with less before it: what is left of the pointers counts
before the size of the schema. -/
theorem Onward.measure_le {target whole : Fields} {rest : List String} {fuel : Nat}
    (h : Onward e part schema pointers target chain rest)
    (hsmaller : (Node.object schema).size < (Node.object whole).size)
    (hfuel : pointers.length * (e.document.size + 1) + (Node.object whole).size ≤ fuel + 1) :
    rest.length * (e.document.size + 1) + (Node.object target).size ≤ fuel := by
  rcases h.nearer with ⟨rfl, rfl⟩ | ⟨hlength, hsize⟩
  · omega
  · have hless := Nat.mul_le_mul_right (e.document.size + 1) (Nat.succ_le_of_lt hlength)
    rw [Nat.succ_mul] at hless
    omega

/-- References at the start of a way are followed to the schema from which it goes on. -/
theorem exists_followWithin {s : Session} (hs : s.Faithful e.document)
    (h : Trail e.document schema pointers part) (hnodup : pointers.Nodup)
    (hfresh : ∀ p ∈ pointers, p ∉ chain) {fuel : Nat} (hfuel : pointers.length < fuel) :
    ∃ target chain' rest, (e.followWithin fuel schema chain s).1 = (some target, chain') ∧
      Onward e part schema pointers target chain' rest := by
  induction fuel generalizing schema pointers chain s with
  | zero => omega
  | succ fuel ih =>
    rw [followWithin_succ]
    cases hpointer : Schema.pointer? schema with
    | none =>
      exact ⟨schema, chain, pointers, rfl, h, hpointer, hnodup, hfresh, .inl ⟨rfl, rfl⟩⟩
    | some pointer =>
      cases h with
      | stop hnone => simp [hnone] at hpointer
      | own hkind => simp [pointer?_eq_none_of_allOf hkind] at hpointer
      | enter hkind => simp [pointer?_eq_none_of_allOf hkind] at hpointer
      | @follow _ found _ first pointers hfirst hresolve htrail =>
        obtain rfl : first = pointer := Option.some.inj (hfirst.symm.trans hpointer)
        obtain ⟨hnew, hnodup⟩ := List.nodup_cons.mp hnodup
        have hl := Reference.lookUp_precedes e.document first s
        have hfound := (Reference.lookUp_eq_some_iff hs).mpr hresolve
        rcases hlook : Reference.lookUp e.document first s with ⟨found', t⟩
        rw [hlook] at hl hfound
        obtain rfl : found' = some found := hfound
        dsimp only
        rw [if_neg (hfresh first List.mem_cons_self), hlook]
        -- The pointer joins the chain. It does not come again on the way.
        have hfresh' : ∀ p ∈ pointers, p ∉ first :: chain := by
          intro p hp hmem
          rcases List.mem_cons.mp hmem with rfl | hmem
          · exact hnew hp
          · exact hfresh p (List.mem_cons_of_mem _ hp) hmem
        rw [List.length_cons] at hfuel
        obtain ⟨target, chain', rest, hrun, honward⟩ :=
          ih (hl.2.faithful hs) htrail hnodup hfresh' (by omega)
        refine ⟨target, chain', rest, hrun, honward.trail, honward.pointer?, honward.nodup,
          honward.fresh, .inr ?_⟩
        rw [List.length_cons]
        rcases honward.nearer with ⟨rfl, rfl⟩ | ⟨hlength, htarget⟩
        · exact ⟨Nat.lt_succ_self _, Pointer.size_le_of_resolve hresolve⟩
        · exact ⟨by omega, htarget⟩

/-- References at the start of a way are followed to a schema from which it goes on. -/
theorem admits_follow_of_trail {allowed : Failure → Prop}
    (h : Trail e.document schema pointers part) (hnodup : pointers.Nodup)
    (hfresh : ∀ p ∈ pointers, p ∉ chain) :
    Admits e.document allowed (fun found => ∃ target chain' rest, found = (some target, chain') ∧
      Onward e part schema pointers target chain' rest) (e.follow schema chain) where
  returns {s t found} hs hrun := by
    have ht := (e.quiet_follow schema chain s).2.faithful hs
    rw [hrun] at ht
    rw [run_follow] at hrun
    obtain rfl : _ = found := Except.ok.inj (Prod.mk.inj hrun).1
    have hlength := h.length_le hnodup
    refine ⟨ht, exists_followWithin hs h hnodup hfresh ?_⟩
    rw [Reference.chainBound]
    omega
  fails _ hrun := nomatch (Prod.mk.inj hrun).1

/-- The part through which a way leads is among those listed. -/
theorem admits_listedParts_of_trail {allowed : Failure → Prop} {member : Fields}
    {members : List Fields} (hmember : member ∈ members)
    (h : Trail e.document member pointers part) (hnodup : pointers.Nodup)
    (hfresh : ∀ p ∈ pointers, p ∉ chain) :
    Admits e.document allowed (fun parts => ∃ target chain' rest, (target, chain') ∈ parts ∧
      Onward e part member pointers target chain' rest) (e.listedParts chain members) := by
  induction members with
  | nil => exact absurd hmember List.not_mem_nil
  | cons first others ih =>
    rw [listedParts]
    -- A member may be listed twice; its first place is enough.
    by_cases hfirst : member = first
    · subst hfirst
      refine (admits_follow_of_trail h hnodup hfresh).bind fun found hfound => ?_
      obtain ⟨target, chain', rest, rfl, honward⟩ := hfound
      refine (admits_listedParts e chain others).bind fun parts _ => admits_pure ?_
      exact ⟨target, chain', rest, List.mem_cons_self, honward⟩
    · have hothers := ih ((List.mem_cons.mp hmember).resolve_left hfirst)
      refine (admits_follow e first chain).bind fun found _ => ?_
      obtain ⟨_ | target, chain'⟩ := found
      · exact (admits_warn _).bind fun _ _ => hothers
      · refine hothers.bind fun parts hparts => admits_pure ?_
        obtain ⟨target', chain'', rest, hmem, honward⟩ := hparts
        exact ⟨target', chain'', rest, List.mem_cons_of_mem _ hmem, honward⟩

/-- Adds one part to what was put together so far. -/
def mergePart (e : Expander) (fuel : Nat) (merged : Merged) (part : Fields × List String) :
    Expansion Merged := do
  if kind part.1 = .allOf then
    let inner ← mergeWithin e fuel part.1 part.2
    return merged.add inner.properties inner.required
  else
    let required ← requiredNames part.1
    return merged.add (fieldsUnder part.1 "properties") required

theorem mergeWithin_succ (fuel : Nat) (schema : Fields) (chain : List String) :
    e.mergeWithin (fuel + 1) schema chain
      = e.parts schema chain >>= fun parts => parts.foldlM (e.mergePart fuel) {} := rfl

theorem admits_mergePart (fuel : Nat) (merged : Merged) (part : Fields × List String) :
    Admits e.document (· = .notIterable) (fun _ => True) (e.mergePart fuel merged part) := by
  unfold mergePart
  split
  · have hmerge : Admits e.document (· = .notIterable) _ (e.mergeWithin fuel part.1 part.2) :=
      admits_mergeWithin e fuel part.2 fun _ _ _ => rfl
    exact hmerge.bind fun _ _ => admits_pure trivial
  · have hrequired : Admits e.document (· = .notIterable) _ (requiredNames part.1) :=
      admits_requiredNames fun _ => rfl
    exact hrequired.bind fun _ _ => admits_pure trivial

/-- Required names that cannot be read are never returned. -/
theorem admits_requiredNames_of_none {document : Node}
    (hnone : Schema.requiredNames part = none) :
    Admits document (· = .notIterable) (fun _ => False) (requiredNames part) := by
  rw [requiredNames, hnone]
  exact admits_throw rfl

/-- A part with required names that cannot be read is not added. -/
theorem admits_mergePart_of_none (hkind : kind part ≠ .allOf)
    (hnone : Schema.requiredNames part = none) (fuel : Nat) (merged : Merged) :
    Admits e.document (· = .notIterable) (fun _ => False)
      (e.mergePart fuel merged (part, chain)) := by
  rw [mergePart, if_neg hkind]
  exact (admits_requiredNames_of_none hnone).bind fun _ => False.elim

/-- Putting a schema together comes to the end of every way through its parts, and fails if there
are required names that cannot be read. -/
theorem admits_mergeWithin_of_trail (hnone : Schema.requiredNames part = none) (fuel : Nat)
    (hkind : kind schema = .allOf) (h : Trail e.document schema pointers part)
    (hnodup : pointers.Nodup) (hfresh : ∀ p ∈ pointers, p ∉ chain)
    (hfuel : pointers.length * (e.document.size + 1) + (Node.object schema).size ≤ fuel) :
    Admits e.document (· = .notIterable) (fun _ => False) (e.mergeWithin fuel schema chain) := by
  -- Every part that is entered is smaller, or a pointer less lies before the end of the way.
  induction fuel generalizing schema pointers chain with
  | zero =>
    have hpos := (Node.object schema).size_pos
    omega
  | succ fuel ih =>
    rw [mergeWithin_succ, parts]
    cases h with
    | stop _ hother => exact absurd hkind hother
    | follow hpointer => simp [pointer?_eq_none_of_allOf hkind] at hpointer
    | own =>
      refine Admits.bind (P := fun parts => (own schema, chain) ∈ parts) ?_ fun parts hmem => ?_
      · refine (admits_listedParts e chain _).bind fun listed _ => admits_pure ?_
        exact List.mem_append_right _ (List.mem_singleton_self _)
      · exact admits_foldlM_stuck (fun merged part _ => admits_mergePart fuel merged part) hmem
          (admits_mergePart_of_none (kind_own_ne_allOf schema) hnone fuel) {}
    | @enter _ member _ _ _ hmember htrail =>
      refine Admits.bind (P := fun parts => ∃ target chain' rest, (target, chain') ∈ parts ∧
        Onward e part member pointers target chain' rest) ?_ fun parts hparts => ?_
      · refine (admits_listedParts_of_trail hmember htrail hnodup hfresh).bind
          fun listed hlisted => admits_pure ?_
        obtain ⟨target, chain', rest, hmem, honward⟩ := hlisted
        exact ⟨target, chain', rest, List.mem_append_left _ hmem, honward⟩
      · obtain ⟨target, chain', rest, hmem, honward⟩ := hparts
        refine admits_foldlM_stuck (fun merged part _ => admits_mergePart fuel merged part) hmem
          (fun merged => ?_) {}
        by_cases htarget : kind target = .allOf
        · rw [mergePart, if_pos htarget]
          have hfuel' := honward.measure_le (part_of_mem_members hmember).size_lt hfuel
          exact (ih htarget honward.trail honward.nodup honward.fresh hfuel').bind
            fun _ => False.elim
        · obtain rfl := honward.trail.eq_of_kind_ne honward.pointer? htarget
          exact admits_mergePart_of_none htarget hnone fuel merged

/-- Putting a schema together fails if required names that it reads cannot be read. -/
theorem admits_merge_of_contributes (hkind : kind schema = .allOf)
    (h : Contributes e.document schema part) (hnone : Schema.requiredNames part = none) :
    Admits e.document (· = .notIterable) (fun _ => False) (e.merge schema []) := by
  obtain ⟨pointers, htrail⟩ := h.exists_trail hkind
  obtain ⟨pointers, htrail, hnodup⟩ := htrail.exists_nodup
  refine admits_mergeWithin_of_trail hnone _ hkind htrail hnodup (by simp) ?_
  -- The bound is above what a way with each pointer once can need.
  have hlength := htrail.length_le hnodup
  rw [mergeBound, Reference.chainBound]
  calc pointers.length * (e.document.size + 1) + (Node.object schema).size
      ≤ (e.document.pointers.length + 1) * (e.document.size + (Node.object schema).size + 1)
        + (e.document.size + (Node.object schema).size + 1) := by
        refine Nat.add_le_add (Nat.mul_le_mul hlength (by omega)) (by omega)
    _ = (e.document.pointers.length + 2) * (e.document.size + (Node.object schema).size + 1) := by
        rw [← Nat.succ_mul]
    _ ≤ _ := Nat.mul_le_mul_right _ (by omega)

variable {typeOf : Node → Place → Expansion Typed}

/-- The declaration of a schema fails if required names that are read for it cannot be read. -/
theorem admits_body_of_reads {r : Request} (h : Reads e.document r.schema part)
    (hnone : Schema.requiredNames part = none) (base origin : String) :
    Admits e.document (· = .notIterable) (fun _ => False)
      (e.body typeOf r (kind r.schema) { base, origin }) := by
  cases h with
  | object hkind =>
    rw [hkind]
    exact (admits_requiredNames_of_none hnone).bind fun _ => False.elim
  | merged hkind hcontributes =>
    rw [hkind]
    exact (admits_merge_of_contributes hkind hcontributes hnone).bind fun _ => False.elim

/-- Declaring a schema under a free name fails if required names that are read for it cannot be
read. -/
theorem resolve_of_reads {s : Session} (hs : s.Faithful e.document) (hlimit : 0 ≤ e.limit)
    (h : Reads e.document schema part) (hnone : Schema.requiredNames part = none)
    {base suffix : String} (hfree : Naming.interfaceName base suffix ∉ s.names) (origin : String) :
    ((e.resolve (.object schema) base suffix origin).run s).1 = .error .notIterable := by
  obtain ⟨left, hleft⟩ := exists_levels_eq_succ hlimit
  have hbody : Admits e.document (· = .notIterable) (fun _ => False)
      (e.body (e.propertyType left) { name := Naming.interfaceName base suffix, schema }
        (kind schema) { base, origin }) := admits_body_of_reads h hnone base origin
  -- An object and an `allOf` are declared by their bodies, which read `required`.
  have hstep : e.resolve (.object schema) base suffix origin
      = once { name := Naming.interfaceName base suffix, schema }
        (e.body (e.propertyType left) { name := Naming.interfaceName base suffix, schema }
          (kind schema) { base, origin }) := by
    rw [resolve, hleft, declare, declareStep]
    cases h with
    | object hkind => rw [hkind]
    | merged hkind => rw [hkind]
  rw [hstep, run_once_of_not_mem hfree]
  rcases hrun : (e.body (e.propertyType left) _ (kind schema) { base, origin }).run
    { s with names := s.names ++ [Naming.interfaceName base suffix] } with ⟨f | ds, t⟩
  · rw [hbody.fails (by exact hs) hrun]
  · exact (hbody.returns (by exact hs) hrun).2.elim

end Expander

end ClientGen
