import Mathlib.Data.List.Nodup
import Mathlib.Data.List.Perm.Subperm
import ClientGen.Proofs.Expansion.Run
import ClientGen.Proofs.Schema.Reach

/-!
# The memory of pointers

One memory serves any number of lookups of pointers and of nodes to be followed to the end of their
references. It changes no answer, and it accounts for the lookups that found an object.

* `Reference.Inquiry`: a lookup of a pointer with its answer.
* `Reference.watchedLookUp`, `Reference.watchedDereference`: lookups and dereferencings that are
  watched for the inquiries they make. They do the same as those that are not
  (`Reference.watchedLookUp_eq`, `Reference.dereferenceWithin_session`).
* `Reference.Accounted`: the memory agrees with the inquiries. Each lookup keeps this up
  (`Reference.Accounted.lookUp`), and so does a whole chain of references.
* `Reference.lookUp_after_queries`: after any queries, a pointer is answered as if there were no
  memory.
* `Reference.dereferenceWithin_of_chainBound_le`: the bound on a chain of references never ends it.
-/

namespace ClientGen.Reference

/-- A lookup of a pointer with its answer. -/
structure Inquiry where
  /-- The pointer that was asked for. -/
  pointer : String
  /-- The object that was found, if one was. -/
  answer : Option Fields

/-- Did the inquiry find an object? -/
def Inquiry.isFound (i : Inquiry) : Bool := i.answer.isSome

/-- A session and the inquiries that were made in it, oldest first. -/
structure Watched where
  /-- The session. -/
  session : Session := {}
  /-- The inquiries. -/
  inquiries : List Inquiry := []

/-- Looks up a pointer and keeps a record of the inquiry. -/
def watchedLookUp (document : Node) (pointer : String) : StateM Watched (Option Fields) := fun w =>
  let (answer, s) := lookUp document pointer w.session
  (answer, { session := s, inquiries := w.inquiries ++ [{ pointer, answer }] })

/-- Follows a chain of references for at most `fuel` steps and keeps a record of its inquiries. -/
def watchedWithin (document : Node) : Nat → List String → Node → StateM Watched (Option Node)
  | 0, _, _ => pure none
  | fuel + 1, seen, .object fields =>
    match Fields.get? fields refKey with
    | none => pure (some (.object fields))
    | some (.text pointer) =>
      if seen.contains pointer then do
        modify fun w => { w with session := w.session.warn ("Circular $ref chain at " ++ pointer) }
        return none
      else do
        match ← watchedLookUp document pointer with
        | none => return none
        | some target => watchedWithin document fuel (pointer :: seen) (.object target)
    | some _ => pure none
  | _ + 1, _, node => pure (some node)

/-- Finds the node at the end of a chain of references and keeps a record of the inquiries. -/
def watchedDereference (document node : Node) : StateM Watched (Option Node) :=
  watchedWithin document (chainBound document) [] node

/-- What can be asked of the memory. -/
inductive Query where
  /-- The object that a pointer names. -/
  | lookUp (pointer : String)
  /-- The node at the end of a chain of references. -/
  | dereference (node : Node)

/-- The session after a query. -/
def Query.after (document : Node) (s : Session) : Query → Session
  | .lookUp pointer => (Reference.lookUp document pointer s).2
  | .dereference node => (Reference.dereference document node s).2

/-- The session after a query, with the record of its inquiries. -/
def Query.watchedAfter (document : Node) (w : Watched) : Query → Watched
  | .lookUp pointer => (watchedLookUp document pointer w).2
  | .dereference node => (watchedDereference document node w).2

/-- The memory agrees with the inquiries that were made. -/
structure Accounted (document : Node) (w : Watched) : Prop where
  /-- What is remembered is what the document says. -/
  faithful : w.session.Faithful document
  /-- No pointer is remembered twice. -/
  nodup : (w.session.known.map Prod.fst).Nodup
  /-- The pointers remembered are those for which an inquiry found an object. -/
  knows : ∀ pointer, w.session.knows pointer = true ↔
    ∃ i ∈ w.inquiries, i.pointer = pointer ∧ i.isFound
  /-- Every inquiry that found an object was a hit or left something in memory. -/
  count : w.session.hits + w.session.known.length = w.inquiries.countP Inquiry.isFound
  /-- Every inquiry got the answer that the document gives. -/
  answers : ∀ i ∈ w.inquiries, i.answer = (Pointer.resolve document i.pointer).bind Node.object?

variable {document : Node} {w : Watched} {s : Session}

/-! ## Watching changes nothing -/

theorem watchedLookUp_eq (document : Node) (pointer : String) (w : Watched) :
    watchedLookUp document pointer w = ((lookUp document pointer w.session).1,
      { session := (lookUp document pointer w.session).2
        inquiries := w.inquiries ++
          [{ pointer, answer := (lookUp document pointer w.session).1 }] }) := rfl

theorem Watched.bind_apply {α β : Type} (x : StateM Watched α) (f : α → StateM Watched β)
    (w : Watched) : (x >>= f) w = f (x w).1 (x w).2 := rfl

/-- A watched chain of references has the same end as one that is not watched, and the same memory
afterwards. -/
theorem dereferenceWithin_session (fuel : Nat) (seen : List String) (node : Node) (w : Watched) :
    dereferenceWithin document fuel seen node w.session
      = ((watchedWithin document fuel seen node w).1,
        (watchedWithin document fuel seen node w).2.session) := by
  fun_induction watchedWithin document fuel seen node generalizing w with
  | case1 seen node => rfl
  | case2 fuel seen fields hvalue =>
    rw [dereferenceWithin, hvalue]
    rfl
  | case3 fuel seen fields pointer hvalue hseen =>
    rw [dereferenceWithin, hvalue]
    dsimp only
    rw [if_pos hseen]
    rfl
  | case4 fuel seen fields pointer hvalue hnew ih =>
    -- The same pointer is looked up in the same session, and then the same is followed.
    rw [dereferenceWithin, hvalue]
    dsimp only
    rw [if_neg hnew, Watched.bind_apply, Session.bind_apply, watchedLookUp_eq]
    rcases lookUp document pointer w.session with ⟨_ | target, t⟩
    · rfl
    · exact ih target ⟨t, _⟩
  | case5 fuel seen fields value hother hvalue =>
    rw [dereferenceWithin, hvalue]
    cases value <;> first | rfl | exact (hother _ rfl).elim
  | case6 fuel seen node hother =>
    cases node <;> first | rfl | exact (hother _ rfl).elim

/-! ## The memory agrees with the inquiries -/

theorem accounted_empty (document : Node) : Accounted document {} where
  faithful := Session.faithful_empty document
  nodup := List.nodup_nil
  knows pointer := by simp [Session.knows]
  count := rfl
  answers := by simp

/-- Warnings do not touch the memory. -/
theorem Accounted.warn (h : Accounted document w) (warning : String) :
    Accounted document { w with session := w.session.warn warning } :=
  ⟨h.faithful, h.nodup, h.knows, h.count, h.answers⟩

/-- A pointer is remembered besides those remembered before. -/
theorem knows_remember (s : Session) (pointer p : String) (target : Fields) :
    ({ s with known := s.known ++ [(pointer, target)] } : Session).knows p = true ↔
      s.knows p = true ∨ pointer = p := by
  unfold Session.knows
  rw [List.lookup_append, Option.isSome_or, Bool.or_eq_true]
  refine or_congr_right ?_
  by_cases h : p = pointer
  · simp [h]
  · rw [List.lookup_cons, beq_false_of_ne h]
    simp [Ne.symm h]

theorem exists_found_append (is : List Inquiry) (i : Inquiry) (p : String) :
    (∃ j ∈ is ++ [i], j.pointer = p ∧ j.isFound) ↔
      (∃ j ∈ is, j.pointer = p ∧ j.isFound) ∨ (i.pointer = p ∧ i.isFound) := by
  simp only [List.mem_append, List.mem_singleton, or_and_right, exists_or, exists_eq_left]

/-- A lookup keeps the memory in agreement with the inquiries. -/
theorem Accounted.lookUp (h : Accounted document w) (pointer : String) :
    Accounted document (watchedLookUp document pointer w).2 := by
  have hfaithful := (lookUp_precedes document pointer w.session).2.faithful h.faithful
  have hanswers : ∀ i ∈ (watchedLookUp document pointer w).2.inquiries,
      i.answer = (Pointer.resolve document i.pointer).bind Node.object? :=
    List.forall_mem_append.mpr
      ⟨h.answers, List.forall_mem_singleton.mpr (lookUp_eq h.faithful pointer)⟩
  rw [watchedLookUp_eq] at hanswers ⊢
  obtain ⟨target, hknown, hl⟩ | ⟨target, hnew, -, hl⟩ | ⟨-, -, hl⟩ :=
    lookUp_cases document pointer w.session <;> rw [hl] at hfaithful hanswers ⊢
  · -- A hit: the pointer was among those remembered.
    have hmem : w.session.knows pointer = true := by
      simp [Session.knows, hknown]
    refine ⟨hfaithful, h.nodup, fun p => ?_, ?_, hanswers⟩
    · rw [exists_found_append, ← h.knows p]
      refine ⟨.inl, ?_⟩
      rintro (hp | ⟨rfl, -⟩)
      · exact hp
      · exact hmem
    · rw [List.countP_append, ← h.count, List.countP_cons_of_pos rfl, List.countP_nil]
      dsimp only
      omega
  · -- Not remembered before, and found in the document.
    have hfresh : ∀ x ∈ w.session.known, pointer ≠ x.1 := by
      simpa using List.lookup_eq_none_iff.mp hnew
    refine ⟨hfaithful, ?_, fun p => ?_, ?_, hanswers⟩
    · rw [List.map_append]
      refine List.nodup_append.mpr ⟨h.nodup, List.nodup_singleton _, fun p hp q hq hpq => ?_⟩
      obtain ⟨x, hx, rfl⟩ := List.mem_map.mp hp
      exact hfresh x hx (hpq.trans (List.mem_singleton.mp hq)).symm
    · rw [exists_found_append, ← h.knows p, knows_remember]
      exact or_congr_right (iff_self_and.mpr fun _ => rfl)
    · rw [List.countP_append, ← h.count, List.countP_cons_of_pos rfl, List.countP_nil,
        List.length_append, List.length_singleton]
      dsimp only
      omega
  · -- Nothing found: neither the memory nor the counters change.
    refine ⟨hfaithful, h.nodup, fun p => ?_, ?_, hanswers⟩
    · rw [exists_found_append, ← h.knows p]
      exact (or_iff_left fun hp => Bool.false_ne_true hp.2).symm
    · rw [List.countP_append, ← h.count, List.countP_cons_of_neg Bool.false_ne_true,
        List.countP_nil]
      rfl

/-- A chain of references keeps the memory in agreement with the inquiries. -/
theorem Accounted.within (h : Accounted document w) (fuel : Nat) (seen : List String)
    (node : Node) : Accounted document (watchedWithin document fuel seen node w).2 := by
  -- Only a chain that comes back and one that goes on do anything to the session.
  fun_induction watchedWithin document fuel seen node generalizing w with
  | case3 fuel seen fields pointer hvalue hseen => exact h.warn _
  | case4 fuel seen fields pointer hvalue hnew ih =>
    have hl := h.lookUp pointer
    rw [Watched.bind_apply]
    rcases hw : watchedLookUp document pointer w with ⟨_ | target, v⟩ <;> rw [hw] at hl
    · exact hl
    · exact ih target hl
  | _ => exact h

/-- Queries keep the memory in agreement with the inquiries, and the record of inquiries does not
change what they do. -/
theorem Accounted.queries (h : Accounted document w) (queries : List Query) :
    Accounted document (queries.foldl (Query.watchedAfter document) w) ∧
      (queries.foldl (Query.watchedAfter document) w).session
        = queries.foldl (Query.after document) w.session := by
  induction queries generalizing w with
  | nil => exact ⟨h, rfl⟩
  | cons query queries ih =>
    have hstep : Accounted document (query.watchedAfter document w) ∧
        (query.watchedAfter document w).session = query.after document w.session := by
      cases query with
      | lookUp pointer => exact ⟨h.lookUp pointer, rfl⟩
      | dereference node =>
        refine ⟨h.within _ [] node, ?_⟩
        exact (congrArg Prod.snd (dereferenceWithin_session _ [] node w)).symm
    rw [List.foldl_cons, List.foldl_cons, ← hstep.2]
    exact ih hstep.1

/-- One memory serves any queries, in any order. Whatever was asked before, a pointer is answered as
if there were no memory; the pointers remembered are those for which some inquiry found an object,
each once; and the hits and the remembered pointers together are the inquiries, those on the way
along references included, that found an object. -/
theorem lookUp_after_queries (document : Node) (queries : List Query) :
    let w := queries.foldl (Query.watchedAfter document) {}
    let s := queries.foldl (Query.after document) {}
    w.session = s ∧
      (∀ pointer, (lookUp document pointer s).1
        = (Pointer.resolve document pointer).bind Node.object?) ∧
      (∀ pointer, s.knows pointer = true ↔
        ∃ i ∈ w.inquiries, i.pointer = pointer ∧ i.isFound) ∧
      (s.known.map Prod.fst).Nodup ∧
      s.hits + s.known.length = w.inquiries.countP Inquiry.isFound := by
  intro w s
  obtain ⟨h, hsession⟩ := (accounted_empty document).queries queries
  change w.session = s at hsession
  refine ⟨hsession, fun pointer => ?_, ?_⟩
  · rw [← hsession]
    exact lookUp_eq h.faithful pointer
  · rw [← hsession]
    exact ⟨h.knows, h.nodup, h.count⟩

/-! ## The bound on a chain -/

/-- Two bounds on a chain do not differ if they do not differ on what follows its first pointer. -/
theorem dereferenceWithin_congr {fuel fuel' : Nat} {seen : List String} {fields : Fields}
    (h : ∀ pointer target t, Fields.get? fields refKey = some (.text pointer) → pointer ∉ seen →
      lookUp document pointer s = (some target, t) →
      dereferenceWithin document fuel (pointer :: seen) (.object target) t
        = dereferenceWithin document fuel' (pointer :: seen) (.object target) t) :
    dereferenceWithin document (fuel + 1) seen (.object fields) s
      = dereferenceWithin document (fuel' + 1) seen (.object fields) s := by
  rw [dereferenceWithin, dereferenceWithin]
  cases hvalue : Fields.get? fields refKey with
  | none => rfl
  | some value =>
    cases value with
    | text pointer =>
      dsimp only
      -- A pointer in the chain ends both walks; a new one is looked up in the same session.
      split
      · rfl
      · rename_i hnew
        rw [Session.bind_apply, Session.bind_apply]
        rcases hl : lookUp document pointer s with ⟨_ | target, t⟩
        · rfl
        · exact h pointer target t hvalue (by simpa using hnew) hl
    | _ => rfl

/-- Inside the document one more step does not matter when the pointers of the document have not
been used up: those seen are different, and all but the first one stand in the document. -/
theorem dereferenceWithin_succ {fuel : Nat} (along : List String) {first : String}
    {fields : Fields} (hs : s.Faithful document) (hnodup : along.Nodup)
    (halong : along ⊆ document.pointers)
    (hfields : (Node.object fields).pointers ⊆ document.pointers)
    (hfuel : document.pointers.length + 1 ≤ fuel + along.length) :
    dereferenceWithin document (fuel + 1) (along ++ [first]) (.object fields) s
      = dereferenceWithin document fuel (along ++ [first]) (.object fields) s := by
  induction fuel generalizing along fields s with
  | zero =>
    -- There are not that many different pointers in the document.
    have hlength := (hnodup.subperm halong).length_le
    omega
  | succ fuel ih =>
    refine dereferenceWithin_congr fun pointer target t hvalue hnew hl => ?_
    have hfaithful := (lookUp_precedes document pointer s).2.faithful hs
    rw [hl] at hfaithful
    have hpointer := hfields (Node.mem_pointers (Fields.mem_of_get? hvalue))
    refine ih (pointer :: along) hfaithful ?_ ?_ ?_ ?_
    · refine List.nodup_cons.mpr ⟨fun hmem => hnew ?_, hnodup⟩
      exact List.mem_append_left _ hmem
    · exact List.cons_subset.mpr ⟨hpointer, halong⟩
    · exact Pointer.pointers_subset_of_resolve ((lookUp_eq_some_iff hs).mp (by rw [hl]))
    · rw [List.length_cons]
      omega

/-- The bound on a chain of references never ends it: with more steps nothing else is found. -/
theorem dereferenceWithin_of_chainBound_le (hs : s.Faithful document) {fuel : Nat}
    (hfuel : chainBound document ≤ fuel) (node : Node) :
    dereferenceWithin document fuel [] node s = dereference document node s := by
  obtain ⟨more, rfl⟩ := Nat.exists_eq_add_of_le hfuel
  clear hfuel
  induction more with
  | zero => rfl
  | succ more ih =>
    rw [← ih, chainBound]
    have hsplit : document.pointers.length + 2 + more
        = document.pointers.length + 1 + more + 1 := by omega
    rw [← Nat.add_assoc, hsplit]
    cases node with
    | object fields =>
      -- From the first pointer on, the chain runs inside the document.
      refine dereferenceWithin_congr fun pointer target t hvalue hnew hl => ?_
      have hfaithful := (lookUp_precedes document pointer s).2.faithful hs
      rw [hl] at hfaithful
      refine dereferenceWithin_succ [] hfaithful List.nodup_nil (List.nil_subset _) ?_ ?_
      · exact Pointer.pointers_subset_of_resolve ((lookUp_eq_some_iff hs).mp (by rw [hl]))
      · exact Nat.le_add_right _ _
    | _ => rfl

end ClientGen.Reference
