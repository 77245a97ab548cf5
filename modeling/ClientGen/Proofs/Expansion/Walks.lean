import ClientGen.Proofs.Expansion.Required
import ClientGen.Proofs.Expansion.Settling

/-!
# Walks along references

Where following references from a schema ends, told by the document alone, and how long a walk that
goes down in schemas and along references can become.

* `Schema.Follows`: what following references comes to, with the chain of pointers before and
  afterwards. There is exactly one outcome (`Schema.Follows.unique`).
* `Expander.follows_follow`: it is the one that is computed; the bound on the number of steps is
  never met.
* `Expander.Room`: so many steps down or along references are possible at most.
* `Expander.room_mergeBound`: a walk from a schema fits into `Expander.mergeBound`.
-/

namespace ClientGen

/-- No more texts are missing than there are. -/
theorem missing_le_length (xs ys : List String) : missing xs ys ≤ xs.length :=
  (Finset.card_le_card Finset.sdiff_subset).trans xs.toFinset_card_le

namespace Schema

variable {document : Node} {chain chain' : List String} {schema target : Fields}

/-- What following references from a schema comes to: the schema at their end, or none where a
pointer is already on the chain or names no object. The chain holds the pointers followed, the
newest first. -/
inductive Follows (document : Node) : List String → Fields → Option Fields × List String → Prop
  /-- A schema that is no reference. -/
  | here {chain : List String} {schema : Fields} : pointer? schema = none →
    Follows document chain schema (some schema, chain)
  /-- A pointer comes again. -/
  | again {chain : List String} {schema : Fields} {pointer : String} :
    pointer? schema = some pointer → pointer ∈ chain → Follows document chain schema (none, chain)
  /-- A pointer names no object. -/
  | nowhere {chain : List String} {schema : Fields} {pointer : String} :
    pointer? schema = some pointer → pointer ∉ chain →
    (∀ found, Pointer.resolve document pointer ≠ some (.object found)) →
    Follows document chain schema (none, chain)
  /-- A pointer is followed. -/
  | along {chain : List String} {schema found : Fields} {pointer : String}
    {outcome : Option Fields × List String} : pointer? schema = some pointer → pointer ∉ chain →
    Pointer.resolve document pointer = some (.object found) →
    Follows document (pointer :: chain) found outcome → Follows document chain schema outcome

/-- Following references comes to one outcome only. -/
theorem Follows.unique {outcome outcome' : Option Fields × List String}
    (h : Follows document chain schema outcome) (h' : Follows document chain schema outcome') :
    outcome = outcome' := by
  induction h with
  | here hnone => cases h' <;> simp_all
  | again hpointer hmem => cases h' <;> simp_all
  | nowhere hpointer hfresh hno => cases h' <;> simp_all
  | @along chain schema found pointer outcome hpointer hfresh hresolve _ ih =>
    cases h' with
    | here hnone => simp [hnone] at hpointer
    | again hpointer' hmem =>
      obtain rfl := Option.some.inj (hpointer.symm.trans hpointer')
      exact absurd hmem hfresh
    | nowhere hpointer' _ hno =>
      obtain rfl := Option.some.inj (hpointer.symm.trans hpointer')
      exact absurd hresolve (hno found)
    | along hpointer' _ hresolve' h' =>
      obtain rfl := Option.some.inj (hpointer.symm.trans hpointer')
      obtain rfl := Node.object.inj (Option.some.inj (hresolve.symm.trans hresolve'))
      exact ih h'

/-- References end at a schema that is none. -/
theorem Follows.pointer?_eq_none (h : Follows document chain schema (some target, chain')) :
    pointer? target = none := by
  generalize houtcome : (some target, chain') = outcome at h
  induction h with
  | here hnone =>
    obtain ⟨rfl, -⟩ := by simpa using houtcome
    exact hnone
  | again => simp at houtcome
  | nowhere => simp at houtcome
  | along _ _ _ _ ih => exact ih houtcome

end Schema

namespace Expander

open Expansion Schema

variable {e : Expander} {schema target inner : Fields} {chain chain' : List String} {k n : Nat}

/-! ## How many references can be followed -/

/-- At most `k` references can be followed from the schema. Behind the first one they all stand in
the document, and none of them comes again. -/
def Within (e : Expander) (k : Nat) (schema : Fields) (chain : List String) : Prop :=
  missing e.document.pointers chain < k ∨
    (Node.object schema).pointers ⊆ e.document.pointers ∧ missing e.document.pointers chain ≤ k

/-- From any schema no more references can be followed than there are pointers in the document, and
one more. -/
theorem within_start (e : Expander) (schema : Fields) (chain : List String) :
    Within e (e.document.pointers.length + 1) schema chain :=
  .inl (Nat.lt_succ_of_le (missing_le_length _ _))

/-- A schema whose references are among those of another one has the same room. -/
theorem Within.part (h : Within e k schema chain)
    (hinner : (Node.object inner).pointers ⊆ (Node.object schema).pointers) :
    Within e k inner chain :=
  h.imp_right fun ⟨hschema, hle⟩ => ⟨List.Subset.trans hinner hschema, hle⟩

/-- Behind a reference one less can be followed. -/
theorem Within.along (h : Within e k schema chain) {pointer : String}
    (hpointer : pointer? schema = some pointer) (hfresh : pointer ∉ chain)
    (hresolve : Pointer.resolve e.document pointer = some (.object target)) :
    ∃ less, k = less + 1 ∧ Within e less target (pointer :: chain) := by
  have hdocument := Pointer.pointers_subset_of_resolve hresolve
  have hsubset : chain ⊆ pointer :: chain := List.subset_cons_self _ _
  have hmissing : missing e.document.pointers (pointer :: chain) < k := by
    rcases h with hlt | ⟨hschema, hle⟩
    · exact (missing_le hsubset).trans_lt hlt
    · have hmem := hschema (mem_pointers_of_pointer? hpointer)
      exact (missing_lt hsubset hmem hfresh List.mem_cons_self).trans_le hle
  exact ⟨k - 1, by omega, .inr ⟨hdocument, by omega⟩⟩

/-! ## What is computed -/

/-- With more steps than there is room for, references are followed to where they lead in the
document. -/
theorem follows_followWithin {s : Session} (hs : s.Faithful e.document)
    (h : Within e k schema chain) {fuel : Nat} (hfuel : k < fuel) :
    Follows e.document chain schema (e.followWithin fuel schema chain s).1 := by
  induction fuel generalizing schema chain s k with
  | zero => omega
  | succ fuel ih =>
    rw [followWithin_succ]
    cases hpointer : pointer? schema with
    | none => exact .here hpointer
    | some pointer =>
      dsimp only
      split
      · exact .again hpointer ‹_›
      · rename_i hfresh
        -- The memory answers as the document does, as the session is faithful to it.
        have hl := Reference.lookUp_precedes e.document pointer s
        rcases hlook : Reference.lookUp e.document pointer s with ⟨_ | found, t⟩ <;>
          rw [hlook] at hl
        · refine .nowhere hpointer hfresh fun found hresolve => ?_
          have hfound := (Reference.lookUp_eq_some_iff hs).mpr hresolve
          simp [hlook] at hfound
        · have hresolve := (Reference.lookUp_eq_some_iff hs).mp (by rw [hlook])
          obtain ⟨less, rfl, hless⟩ := h.along hpointer hfresh hresolve
          exact .along hpointer hfresh hresolve (ih (hl.2.faithful hs) hless (by omega))

/-- Following references comes to what the document says. -/
theorem follows_follow {s : Session} (hs : s.Faithful e.document) (schema : Fields)
    (chain : List String) :
    Follows e.document chain schema
      (e.followWithin (Reference.chainBound e.document) schema chain s).1 :=
  follows_followWithin hs (within_start e schema chain) (Nat.lt_succ_self _)

/-- What following references is found to come to. -/
theorem follows_of_run {s t : Session} (hs : s.Faithful e.document)
    {outcome : Option Fields × List String}
    (h : (e.follow schema chain).run s = (.ok outcome, t)) :
    t.Faithful e.document ∧ Follows e.document chain schema outcome := by
  have hquiet := e.quiet_follow schema chain s
  rw [h] at hquiet
  rw [run_follow] at h
  obtain ⟨rfl, -⟩ := by simpa using h
  exact ⟨hquiet.2.faithful hs, follows_follow hs schema chain⟩

/-- Following references always returns what the document says. -/
theorem exists_run_of_follows {s : Session} (hs : s.Faithful e.document)
    {outcome : Option Fields × List String} (h : Follows e.document chain schema outcome) :
    ∃ t, (e.follow schema chain).run s = (.ok outcome, t) ∧ t.Faithful e.document := by
  have hrun := run_follow e schema chain s
  obtain ⟨ht, houtcome⟩ := follows_of_run hs hrun
  rw [houtcome.unique h] at hrun
  exact ⟨_, hrun, ht⟩

/-! ## How far a walk can lead -/

/-- At most `n` steps lead on from the schema: each goes down in a schema, or follows a reference,
behind which a schema of the document stands. -/
def Room (e : Expander) (n : Nat) (schema : Fields) (chain : List String) : Prop :=
  ∃ k, Within e k schema chain ∧ k * (e.document.size + 1) + (Node.object schema).size ≤ n

/-- The bound for putting a schema together leaves room for it. -/
theorem room_mergeBound (e : Expander) (schema : Fields) (chain : List String) :
    Room e (e.mergeBound schema) schema chain := by
  refine ⟨_, within_start e schema chain, ?_⟩
  rw [mergeBound, Reference.chainBound]
  calc (e.document.pointers.length + 1) * (e.document.size + 1) + (Node.object schema).size
      ≤ (e.document.pointers.length + 1) * (e.document.size + (Node.object schema).size + 1)
        + (e.document.size + (Node.object schema).size + 1) :=
        Nat.add_le_add (Nat.mul_le_mul_left _ (by omega)) (by omega)
    _ = (e.document.pointers.length + 2) * (e.document.size + (Node.object schema).size + 1) := by
        rw [← Nat.succ_mul]
    _ ≤ _ := Nat.mul_le_mul_right _ (by omega)

/-- There is room for the schema itself. -/
theorem Room.pos (h : Room e n schema chain) : 0 < n := by
  obtain ⟨k, -, hle⟩ := h
  have hpos := (Node.object schema).size_pos
  omega

/-- A step down. -/
theorem Room.part (h : Room e (n + 1) schema chain)
    (hpointers : (Node.object inner).pointers ⊆ (Node.object schema).pointers)
    (hsize : (Node.object inner).size < (Node.object schema).size) : Room e n inner chain := by
  obtain ⟨k, hwithin, hle⟩ := h
  exact ⟨k, hwithin.part hpointers, by omega⟩

/-- The items of a list are a step down. -/
theorem Room.items (h : Room e (n + 1) schema chain) (hkind : kind schema = .array) :
    Room e n (items schema) chain := by
  refine h.part ?_ (size_items_lt hkind)
  rcases items_eq_nil_or_part schema with hnil | hpart
  · rw [hnil, Node.pointers, Node.pointersOfFields]
    exact List.nil_subset _
  · exact hpart.pointers_subset

/-- A listed part is a step down. -/
theorem Room.member (h : Room e (n + 1) schema chain) {key : String}
    (hmember : inner ∈ members schema key) : Room e n inner chain :=
  have hpart := part_of_mem_members hmember
  h.part hpart.pointers_subset hpart.size_lt

/-- Behind references there are no more steps to come than before them, and fewer if there are any
references. -/
theorem Room.follows (h : Room e n schema chain)
    (hfollows : Follows e.document chain schema (some target, chain')) :
    Room e n target chain' ∧ (kind schema = .reference → Room e (n - 1) target chain') := by
  generalize houtcome : (some target, chain') = outcome at hfollows
  induction hfollows generalizing n with
  | here hnone =>
    obtain ⟨rfl, rfl⟩ := by simpa using houtcome
    refine ⟨h, fun hkind => ?_⟩
    obtain ⟨pointer, hpointer⟩ := exists_pointer_of_reference hkind
    simp [hnone] at hpointer
  | again => simp at houtcome
  | nowhere => simp at houtcome
  | @along chain schema found pointer _ hpointer hfresh hresolve _ ih =>
    obtain ⟨k, hwithin, hle⟩ := h
    obtain ⟨less, rfl, hless⟩ := hwithin.along hpointer hfresh hresolve
    -- What the reference has set aside is enough for any object of the document.
    have hsize := Pointer.size_le_of_resolve hresolve
    have hpos := (Node.object schema).size_pos
    rw [Nat.succ_mul] at hle
    have hfound : Room e (n - 1) found (pointer :: chain) := ⟨less, hless, by omega⟩
    obtain ⟨k', hwithin', hle'⟩ := (ih hfound houtcome).1
    exact ⟨⟨k', hwithin', by omega⟩, fun _ => ⟨k', hwithin', hle'⟩⟩

end Expander

end ClientGen
