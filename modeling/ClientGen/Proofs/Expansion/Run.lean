import ClientGen.Proofs.Expansion.Reading

/-!
# Runs of expansions

How computations over a session compose, and what they do to the session.

* `Expansion.run`: the outcome of a computation in a session.
* `Expansion.run_bind_eq_ok_iff`: a sequence returns when its parts do.
* `Session.Faithful`: what is remembered of pointers is what the document says.
* `Expansion.Quiet`: the computation declares nothing. All that looks at schemas or for schemas is
  of this kind (`Expansion.quiet_reading`).
* `Expansion.Grows`: no declared name is lost, also when the computation fails. Expansions are of
  this kind (`Expansion.grows_claiming`).
-/

namespace ClientGen

namespace Expansion

variable {α β : Type}

/-- The result of a computation that starts in a session, and the session afterwards. -/
def run (x : Expansion α) (s : Session) : Except Failure α × Session := x s

@[simp]
theorem run_pure (a : α) (s : Session) : run (pure a) s = (.ok a, s) := rfl

@[simp]
theorem run_throw (f : Failure) (s : Session) :
    run (throw f : Expansion α) s = (.error f, s) := rfl

/-- A sequence runs its first part, and then its second part in the session that the first one
leaves. -/
theorem run_bind (x : Expansion α) (f : α → Expansion β) (s : Session) :
    (x >>= f).run s = match x.run s with
      | (.ok a, t) => (f a).run t
      | (.error e, t) => (.error e, t) := by
  -- The state monad below hands the outcome and the session over as they are.
  change (ExceptT.bindCont f (run x s).1) (run x s).2 = _
  rcases run x s with ⟨r | r, t⟩ <;> rfl

/-- After a first part that returns, a sequence goes on with its second part. -/
theorem run_bind_of_ok {x : Expansion α} {s t : Session} {a : α} (h : x.run s = (.ok a, t))
    (f : α → Expansion β) : (x >>= f).run s = (f a).run t := by
  rw [run_bind, h]

/-- A first part that fails ends the sequence. -/
theorem run_bind_of_error {x : Expansion α} {s t : Session} {e : Failure}
    (h : x.run s = (.error e, t)) (f : α → Expansion β) : (x >>= f).run s = (.error e, t) := by
  rw [run_bind, h]

/-- A sequence returns exactly when its first part returns and then the second. -/
theorem run_bind_eq_ok_iff {x : Expansion α} {f : α → Expansion β} {s t : Session} {b : β} :
    (x >>= f).run s = (.ok b, t) ↔ ∃ a u, x.run s = (.ok a, u) ∧ (f a).run u = (.ok b, t) := by
  constructor
  · intro h
    rcases hx : x.run s with ⟨e | a, u⟩
    · rw [run_bind_of_error hx] at h
      simp at h
    · rw [run_bind_of_ok hx] at h
      exact ⟨a, u, rfl, h⟩
  · rintro ⟨a, u, hx, hf⟩
    rw [run_bind_of_ok hx, hf]

/-- A warning is added to the session, and nothing fails. -/
@[simp]
theorem run_warn (w : String) (s : Session) :
    (Expander.warn w).run s = (.ok (), s.warn w) := rfl

/-- A name that is taken is not claimed again. -/
theorem run_claim_of_mem {name : String} {s : Session} (h : name ∈ s.names) :
    (Expander.claim name).run s = (.ok false, s) := by
  simp [run, Expander.claim, Session.claim, h]

/-- A name that is free is claimed. -/
theorem run_claim_of_not_mem {name : String} {s : Session} (h : name ∉ s.names) :
    (Expander.claim name).run s = (.ok true, { s with names := s.names ++ [name] }) := by
  simp [run, Expander.claim, Session.claim, h]

end Expansion

/-! ## Sessions of one pass -/

namespace Session

/-- A sequence over a session hands the result and the session on. -/
theorem bind_apply {α β : Type} (x : StateM Session α) (f : α → StateM Session β) (s : Session) :
    (x >>= f) s = f (x s).1 (x s).2 := rfl

variable {document : Node} {s t u : Session}

/-- What is remembered of pointers is what the document says. -/
def Faithful (document : Node) (s : Session) : Prop :=
  ∀ pointer target, s.known.lookup pointer = some target →
    Pointer.resolve document pointer = some (.object target)

/-- A new session remembers nothing. -/
theorem faithful_empty (document : Node) : ({} : Session).Faithful document :=
  fun pointer target h => by simp at h

/-- The second session can come after the first: declared names stay, new ones come behind them, and
the memory of pointers stays faithful. -/
structure Precedes (document : Node) (s t : Session) : Prop where
  /-- The declared names stay. -/
  names : s.names <+: t.names
  /-- The memory stays faithful. -/
  faithful : s.Faithful document → t.Faithful document

/-- Every session comes after itself. -/
theorem Precedes.rfl : Precedes document s s := ⟨List.prefix_rfl, id⟩

/-- A session that comes after a later one comes after the earlier one as well. -/
theorem Precedes.trans (h : Precedes document s t) (h' : Precedes document t u) :
    Precedes document s u :=
  ⟨h.names.trans h'.names, h'.faithful ∘ h.faithful⟩

end Session

namespace Expansion

variable {α β : Type} {document : Node}

/-- The computation declares nothing and keeps the memory faithful. -/
def Quiet (document : Node) (x : Expansion α) : Prop :=
  ∀ s : Session, (x.run s).2.names = s.names ∧ s.Precedes document (x.run s).2

/-- The computation loses no declared name and keeps the memory faithful. -/
def Grows (document : Node) (x : Expansion α) : Prop :=
  ∀ s : Session, s.Precedes document (x.run s).2

/-- A computation that declares nothing loses no declared name. -/
theorem Quiet.grows {x : Expansion α} (h : Quiet document x) : Grows document x :=
  fun s => (h s).2

/-- Returning a result declares nothing. -/
theorem quiet_pure (a : α) : Quiet document (pure a) := fun _ => ⟨rfl, .rfl⟩

/-- Failing declares nothing. -/
theorem quiet_throw (f : Failure) : Quiet document (throw f : Expansion α) :=
  fun _ => ⟨rfl, .rfl⟩

/-- Giving a warning declares nothing. -/
theorem quiet_warn (w : String) : Quiet document (Expander.warn w) :=
  fun _ => ⟨rfl, List.prefix_rfl, id⟩

/-- A sequence of parts that lose no declared name loses none, also when a part fails. -/
theorem Grows.bind {x : Expansion α} {f : α → Expansion β} (hx : Grows document x)
    (hf : ∀ a, Grows document (f a)) : Grows document (x >>= f) := by
  intro s
  have hxs := hx s
  rcases h : x.run s with ⟨e | a, t⟩ <;> rw [h] at hxs
  · rw [run_bind_of_error h]
    exact hxs
  · rw [run_bind_of_ok h]
    exact hxs.trans (hf a t)

/-- A sequence of parts that declare nothing declares nothing. -/
theorem Quiet.bind {x : Expansion α} {f : α → Expansion β} (hx : Quiet document x)
    (hf : ∀ a, Quiet document (f a)) : Quiet document (x >>= f) := by
  refine fun s => ⟨?_, hx.grows.bind (fun a => (hf a).grows) s⟩
  have hxs := (hx s).1
  rcases h : x.run s with ⟨e | a, t⟩ <;> rw [h] at hxs
  · rw [run_bind_of_error h]
    exact hxs
  · rw [run_bind_of_ok h, (hf a t).1]
    exact hxs

/-- Returning a result loses no declared name. -/
theorem grows_pure (a : α) : Grows document (pure a) := (quiet_pure a).grows

/-- Claiming a name adds it behind the others, or leaves the session as it is. -/
theorem grows_claim (name : String) : Grows document (Expander.claim name) := by
  intro s
  by_cases h : name ∈ s.names
  · rw [run_claim_of_mem h]
    exact .rfl
  · rw [run_claim_of_not_mem h]
    exact ⟨List.prefix_append _ _, id⟩

end Expansion

namespace Reference

variable {document : Node} {s : Session}

/-- What a lookup does: it answers from memory, or remembers an object that it finds, or finds no
object and remembers nothing. -/
theorem lookUp_cases (document : Node) (pointer : String) (s : Session) :
    (∃ target, s.known.lookup pointer = some target ∧
      lookUp document pointer s = (some target, { s with hits := s.hits + 1 })) ∨
    (∃ target, s.known.lookup pointer = none ∧
      Pointer.resolve document pointer = some (.object target) ∧
      lookUp document pointer s
        = (some target, { s with known := s.known ++ [(pointer, target)] })) ∨
    (s.known.lookup pointer = none ∧
      (∀ target, Pointer.resolve document pointer ≠ some (.object target)) ∧
      lookUp document pointer s = (none, s)) := by
  unfold lookUp
  split
  · rename_i target hknown
    exact .inl ⟨target, hknown, rfl⟩
  · rename_i hnew
    split
    · rename_i target hresolve
      exact .inr (.inl ⟨target, hnew, hresolve, rfl⟩)
    · rename_i hother
      exact .inr (.inr ⟨hnew, hother, rfl⟩)

/-- What is looked up in a faithful memory is what the document says. -/
theorem lookUp_eq (hs : s.Faithful document) (pointer : String) :
    (lookUp document pointer s).1 = (Pointer.resolve document pointer).bind Node.object? := by
  obtain ⟨target, hknown, h⟩ | ⟨target, -, hresolve, h⟩ | ⟨-, hother, h⟩ :=
    lookUp_cases document pointer s <;> rw [h]
  · rw [hs pointer target hknown]
    rfl
  · rw [hresolve]
    rfl
  · cases hresolve : Pointer.resolve document pointer with
    | none => rfl
    | some node =>
      cases node with
      | object target => exact absurd hresolve (hother target)
      | _ => rfl

/-- An object is looked up in a faithful memory exactly when the document has it there. -/
theorem lookUp_eq_some_iff (hs : s.Faithful document) {pointer : String} {target : Fields} :
    (lookUp document pointer s).1 = some target ↔
      Pointer.resolve document pointer = some (.object target) := by
  rw [lookUp_eq hs]
  constructor
  · intro h
    obtain ⟨node, hresolve, hnode⟩ := Option.bind_eq_some_iff.mp h
    cases node <;> simp_all [Node.object?]
  · intro h
    rw [h]
    rfl

/-- Looking up a pointer gives no warning. -/
theorem warnings_lookUp (document : Node) (pointer : String) (s : Session) :
    (lookUp document pointer s).2.warnings = s.warnings := by
  obtain ⟨target, -, h⟩ | ⟨target, -, -, h⟩ | ⟨-, -, h⟩ :=
    lookUp_cases document pointer s <;> rw [h]

/-- Looking up a pointer declares nothing, and what is remembered of it is true. -/
theorem lookUp_precedes (document : Node) (pointer : String) (s : Session) :
    (lookUp document pointer s).2.names = s.names ∧
      s.Precedes document (lookUp document pointer s).2 := by
  obtain ⟨target, -, h⟩ | ⟨target, -, hresolve, h⟩ | ⟨-, -, h⟩ :=
    lookUp_cases document pointer s <;> rw [h]
  · exact ⟨rfl, List.prefix_rfl, id⟩
  · refine ⟨rfl, List.prefix_rfl, fun hs p t hp => ?_⟩
    rw [List.lookup_append, Option.or_eq_some_iff] at hp
    rcases hp with hp | ⟨-, hp⟩
    · exact hs p t hp
    · -- Not remembered before: it can only be the pointer that was just added.
      by_cases h : p = pointer
      · subst h
        rw [List.lookup_cons_self, Option.some.injEq] at hp
        rw [hresolve, hp]
      · rw [List.lookup_cons, beq_false_of_ne h] at hp
        simp at hp
  · exact ⟨rfl, .rfl⟩

end Reference

namespace Expansion

variable (document : Node)

/-- Declaring nothing is a property of all that looks at schemas and for schemas. -/
theorem quiet_reading : Reading document fun _ x => Quiet document x where
  pure := quiet_pure
  throw := quiet_throw
  bind hx hf := hx.bind hf
  warn := quiet_warn
  lookUp pointer := Reference.lookUp_precedes document pointer

/-- Losing no declared name is a property of all that a pass computes. -/
theorem grows_claiming : Claiming document fun _ x => Grows document x where
  pure a := (quiet_pure a).grows
  throw f := (quiet_throw f).grows
  bind hx hf := hx.bind hf
  warn w := (quiet_warn w).grows
  lookUp pointer := ((quiet_reading document).lookUp pointer).grows
  claim := grows_claim

variable {document}

/-- Meeting a request loses no declared name if finding its declarations loses none. -/
theorem Grows.once (r : Request) {x : Expansion (List Declaration)} (hx : Grows document x) :
    Grows document (Expander.once r x) :=
  (grows_claiming document).once r hx

end Expansion

namespace Expander

open Expansion

variable (e : Expander) {document : Node}

/-- If its name is taken, a request is met with nothing. -/
theorem run_once_of_mem {r : Request} {s : Session} (h : r.name ∈ s.names)
    (x : Expansion (List Declaration)) : (once r x).run s = (.ok [], s) := by
  rw [once, run_bind_of_ok (run_claim_of_mem h), if_neg Bool.false_ne_true]
  rfl

/-- If its name is free, a request is met after the name is claimed. -/
theorem run_once_of_not_mem {r : Request} {s : Session} (h : r.name ∉ s.names)
    (x : Expansion (List Declaration)) :
    (once r x).run s = x.run { s with names := s.names ++ [r.name] } := by
  rw [once, run_bind_of_ok (run_claim_of_not_mem h), if_pos rfl]

/-- There are levels unless the limit is negative. -/
theorem exists_levels_eq_succ {e : Expander} (h : 0 ≤ e.limit) :
    ∃ left, e.levels = left + 1 :=
  ⟨(e.limit + 1).toNat - 1, by rw [levels]; omega⟩

/-- One step along a chain of references. -/
theorem followWithin_succ (fuel : Nat) (schema : Fields) (chain : List String) (s : Session) :
    e.followWithin (fuel + 1) schema chain s =
      match Schema.pointer? schema with
      | none => ((some schema, chain), s)
      | some pointer =>
        if pointer ∈ chain then ((none, chain), s.warn ("Circular $ref " ++ pointer))
        else match Reference.lookUp e.document pointer s with
          | (none, t) => ((none, chain), t)
          | (some target, t) => e.followWithin fuel target (pointer :: chain) t := by
  rw [followWithin]
  cases Schema.pointer? schema with
  | none => rfl
  | some pointer =>
    by_cases h : pointer ∈ chain
    · simp only [List.contains_iff_mem.mpr h, if_true, if_pos h]
      rfl
    · have hc : chain.contains pointer = false := by simpa using h
      simp only [hc, if_neg h, Bool.false_eq_true, if_false]
      rw [Session.bind_apply]
      rcases Reference.lookUp e.document pointer s with ⟨_ | target, t⟩ <;> rfl

/-- Following references declares nothing. -/
theorem quiet_follow (schema : Fields) (chain : List String) :
    Quiet e.document (e.follow schema chain) :=
  (quiet_reading e.document).follow rfl schema chain

/-- The names are the same after following references. -/
theorem names_of_follow {schema : Fields} {chain : List String} {s t : Session}
    {found : Option Fields × List String}
    (h : (e.follow schema chain).run s = (.ok found, t)) : t.names = s.names := by
  simpa [h] using (e.quiet_follow schema chain s).1

/-- What a step borrows declares nothing. -/
theorem Borrowed.quiet {e : Expander} {α : Type} {x : Expansion α} (h : Borrowed e x) :
    Quiet e.document x :=
  (quiet_reading e.document).borrowed rfl h

/-- Losing no declared name is a property that the steps of an expansion keep. -/
theorem kept_grows : Kept e (m := Expansion) fun _ x => Grows e.document x :=
  (grows_claiming e.document).kept

/-- At every level, declaring a schema loses no declared name, and neither does typing one. -/
theorem grows_level (left : Nat) :
    (∀ schema suffix place, Grows e.document (e.declare left schema suffix place)) ∧
      ∀ node place, Grows e.document (e.propertyType left node place) :=
  (grows_claiming e.document).level left

/-- An expansion loses no declared name, also when it fails. -/
theorem grows_resolve (node : Node) (base suffix origin : String) :
    Grows e.document (e.resolve node base suffix origin) :=
  (grows_claiming e.document).resolve node base suffix origin

end Expander

end ClientGen
