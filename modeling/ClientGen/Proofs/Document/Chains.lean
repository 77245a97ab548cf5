import ClientGen.Proofs.Document.Memory

/-!
# Chains of references

Where a chain of references ends, seen from the document alone.

* `Reference.Leads`: references lead from one node to another in a number of steps.
* `Reference.dereference_eq_some_iff`: the node that is found at the end of a chain is the one that
  they lead to.
-/

namespace ClientGen.Reference

/-- References lead, in a number of steps, from one node to another one that is no reference. -/
inductive Leads (document : Node) : Nat → Node → Node → Prop
  /-- A node that is no reference. -/
  | here {node : Node} : node.get? refKey = none → Leads document 0 node node
  /-- A reference to an object from which they lead on. -/
  | along {steps : Nat} {fields found : Fields} {pointer : String} {target : Node} :
    Fields.get? fields refKey = some (.text pointer) →
    Pointer.resolve document pointer = some (.object found) →
    Leads document steps (.object found) target →
    Leads document (steps + 1) (.object fields) target

variable {document node target : Node} {s : Session} {n m : Nat}

/-- References lead to one node only, in one number of steps. -/
theorem Leads.steps_unique {target' : Node} (h : Leads document n node target)
    (h' : Leads document m node target') : n = m := by
  induction h generalizing m with
  | here hnone =>
    cases h' with
    | here => rfl
    | along hpointer => simp [Node.get?, hpointer] at hnone
  | along hpointer hresolve _ ih =>
    cases h' with
    | here hnone => simp [Node.get?, hpointer] at hnone
    | along hpointer' hresolve' h' =>
      obtain rfl := Node.text.inj (Option.some.inj (hpointer.symm.trans hpointer'))
      obtain rfl := Node.object.inj (Option.some.inj (hresolve.symm.trans hresolve'))
      rw [ih h']

/-- What is found at the end of a chain, references lead to. -/
theorem leads_of_dereferenceWithin (hs : s.Faithful document) {fuel : Nat} {seen : List String}
    (h : (dereferenceWithin document fuel seen node s).1 = some target) :
    ∃ steps, Leads document steps node target := by
  fun_induction dereferenceWithin document fuel seen node generalizing s with
  | case1 => cases h
  | case2 fuel seen fields hnone =>
    obtain rfl := Option.some.inj h
    exact ⟨0, .here hnone⟩
  | case3 fuel seen fields pointer hvalue hseen => cases h
  | case4 fuel seen fields pointer hvalue hnew ih =>
    -- The memory stays faithful, so what is remembered is what the pointer names.
    have hl := lookUp_precedes document pointer s
    rw [Session.bind_apply] at h
    rcases hlook : lookUp document pointer s with ⟨_ | found, t⟩ <;> rw [hlook] at h hl
    · cases h
    · have hresolve := (lookUp_eq_some_iff hs).mp (by rw [hlook])
      obtain ⟨steps, hleads⟩ := ih found (hl.2.faithful hs) h
      exact ⟨steps + 1, .along hvalue hresolve hleads⟩
  | case5 fuel seen fields value hother hvalue => cases h
  | case6 fuel seen node hother =>
    obtain rfl := Option.some.inj h
    refine ⟨0, .here ?_⟩
    cases node with
    | object fields => exact absurd rfl (hother fields)
    | _ => rfl

/-- Where references lead is found, if there are steps enough and all pointers seen so far are those
of earlier steps. -/
theorem Leads.dereferenceWithin (hs : s.Faithful document) (h : Leads document n node target)
    {fuel : Nat} (hfuel : n < fuel) {seen : List String}
    (hseen : ∀ p ∈ seen, ∃ found earlier, Pointer.resolve document p = some (.object found) ∧
      Leads document earlier (.object found) target ∧ n ≤ earlier) :
    (dereferenceWithin document fuel seen node s).1 = some target := by
  induction h generalizing fuel seen s with
  | @here node hnone =>
    obtain ⟨fuel, rfl⟩ := Nat.exists_eq_add_one_of_ne_zero (by omega : fuel ≠ 0)
    cases node with
    | object fields =>
      rw [Reference.dereferenceWithin]
      have hget : Fields.get? fields refKey = none := hnone
      rw [hget]
      rfl
    | _ => rfl
  | @along steps fields found pointer target hpointer hresolve hrest ih =>
    obtain ⟨fuel, rfl⟩ := Nat.exists_eq_add_one_of_ne_zero (by omega : fuel ≠ 0)
    have hnew : pointer ∉ seen := by
      -- From an earlier step there are more steps to go than from this one.
      intro hmem
      obtain ⟨found', earlier, hresolve', hleads, hle⟩ := hseen pointer hmem
      obtain rfl := Node.object.inj (Option.some.inj (hresolve.symm.trans hresolve'))
      have := hrest.steps_unique hleads
      omega
    have hl := lookUp_precedes document pointer s
    have hlook := (lookUp_eq_some_iff hs).mpr hresolve
    rw [Reference.dereferenceWithin, hpointer]
    dsimp only
    rw [if_neg (by simpa using hnew), Session.bind_apply, hlook]
    refine ih (hl.2.faithful hs) (by omega) fun p hp => ?_
    rcases List.mem_cons.mp hp with rfl | hp
    · exact ⟨found, steps, hresolve, hrest, Nat.le_refl _⟩
    · obtain ⟨found', earlier, hresolve', hleads, hle⟩ := hseen p hp
      exact ⟨found', earlier, hresolve', hleads, by omega⟩

/-- In a faithful memory, the node that is found at the end of a chain is the one that references
lead to. -/
theorem dereference_eq_some_iff (hs : s.Faithful document) :
    (dereference document node s).1 = some target ↔ ∃ steps, Leads document steps node target := by
  refine ⟨leads_of_dereferenceWithin hs, fun ⟨steps, h⟩ => ?_⟩
  -- With more steps than the bound allows nothing else is found.
  rw [← dereferenceWithin_of_chainBound_le hs (Nat.le_add_right _ (steps + 1))]
  exact h.dereferenceWithin hs (by omega) (by simp)

end ClientGen.Reference
