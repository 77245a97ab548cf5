import ClientGen.Proofs.Expansion.Pass
import ClientGen.Proofs.Expansion.Run

/-!
# Passes after other work

A generator serves many calls with one session. Names that a call declared, also one that failed
midway, stay until the next pass; pointers that were looked up are remembered for good. What a pass
produces does not depend on either.

* `Session.Alike`: two sessions differ only in what they remember of pointers and in the warnings
  given before.
* `Expansion.Oblivious`: in two such sessions the computation comes to the same. All that a pass
  computes is of this kind (`Expansion.oblivious_claiming`).
* `Generation.Task`: what can be asked of a generator.
* `Generation.models_after_tasks`: a pass after any tasks is like a pass in a new session.
-/

namespace ClientGen

/-- Two sessions with the same declared names that remember only what the document says, and that
have given the same warnings after those listed. -/
structure Session.Alike (document : Node) (past past' : List String) (s t : Session) : Prop where
  /-- The declared names are the same. -/
  names : s.names = t.names
  /-- The first memory is faithful. -/
  left : s.Faithful document
  /-- The second memory is faithful. -/
  right : t.Faithful document
  /-- The later warnings are the same. -/
  warnings : ∃ later, s.warnings = past ++ later ∧ t.warnings = past' ++ later

namespace Expansion

variable {α β : Type} {document : Node}

/-- In sessions that are alike the computation has the same outcome, and they stay alike. -/
def Oblivious (document : Node) (x : Expansion α) : Prop :=
  ∀ (past past' : List String) (s t : Session), Session.Alike document past past' s t →
    (x.run s).1 = (x.run t).1 ∧ Session.Alike document past past' (x.run s).2 (x.run t).2

theorem Oblivious.bind {x : Expansion α} {f : α → Expansion β} (hx : Oblivious document x)
    (hf : ∀ a, Oblivious document (f a)) : Oblivious document (x >>= f) := by
  intro past past' s t h
  obtain ⟨houtcome, halike⟩ := hx past past' s t h
  rw [run_bind, run_bind]
  rcases hs : x.run s with ⟨r, s'⟩
  rcases ht : x.run t with ⟨r', t'⟩
  rw [hs, ht] at houtcome halike
  obtain rfl : r = r' := houtcome
  -- Both fail with the same failure, or both go on from the same result.
  cases r with
  | error e => exact ⟨rfl, halike⟩
  | ok a => exact hf a past past' s' t' halike

theorem oblivious_warn (w : String) : Oblivious document (Expander.warn w) := by
  intro past past' s t h
  obtain ⟨later, hs, ht⟩ := h.warnings
  refine ⟨rfl, h.names, h.left, h.right, later ++ [w], ?_, ?_⟩
  · simp [Session.warn, hs]
  · simp [Session.warn, ht]

/-- A name is free in both of two sessions that are alike, or taken in both. -/
theorem oblivious_claim (name : String) : Oblivious document (Expander.claim name) := by
  intro past past' s t h
  by_cases hmem : name ∈ s.names
  · rw [run_claim_of_mem hmem, run_claim_of_mem (h.names ▸ hmem)]
    exact ⟨rfl, h⟩
  · rw [run_claim_of_not_mem hmem, run_claim_of_not_mem (h.names ▸ hmem)]
    exact ⟨rfl, by rw [h.names], h.left, h.right, h.warnings⟩

/-- A lookup is answered from memory or from the document, which comes to the same. -/
theorem oblivious_lookUp (pointer : String) :
    Oblivious document (ExceptT.lift (Reference.lookUp document pointer)) := by
  intro past past' s t h
  have hs := Reference.lookUp_precedes document pointer s
  have ht := Reference.lookUp_precedes document pointer t
  obtain ⟨later, hpast, hpast'⟩ := h.warnings
  refine ⟨?_, ?_, hs.2.faithful h.left, ht.2.faithful h.right, later, ?_, ?_⟩
  · change Except.ok (Reference.lookUp document pointer s).1 = Except.ok _
    rw [Reference.lookUp_eq h.left, ← Reference.lookUp_eq h.right]
    rfl
  · exact hs.1.trans (h.names.trans ht.1.symm)
  · exact (Reference.warnings_lookUp document pointer s).trans hpast
  · exact (Reference.warnings_lookUp document pointer t).trans hpast'

/-- All that a pass computes is oblivious of what the session remembers of pointers. -/
theorem oblivious_claiming (document : Node) :
    Claiming document fun _ x => Oblivious document x where
  pure _ _ _ _ _ h := ⟨rfl, h⟩
  throw _ _ _ _ _ h := ⟨rfl, h⟩
  bind hx hf := hx.bind hf
  warn := oblivious_warn
  lookUp := oblivious_lookUp
  claim := oblivious_claim

end Expansion

namespace Generation

open Expansion

/-- What can be asked of a generator. -/
inductive Task where
  /-- The models for a catalog. -/
  | models (catalog : Catalog)
  /-- The parameters of an operation. -/
  | parameters (o : Operation)
  /-- The schema of what an operation sends. -/
  | request (o : Operation)
  /-- The schema of what an operation answers. -/
  | response (o : Operation)
  /-- The schema of the query parameters of an operation. -/
  | query (o : Operation)
  /-- The declarations of a node. -/
  | resolve (call : Call)
  /-- The type by which other files refer to a node. -/
  | typeReference (call : Call)

/-- The session after a task, whether the task fails or not. -/
def Task.after (e : Expander) (s : Session) : Task → Session
  | .models catalog => ((Generation.models e catalog).run s).2
  | .parameters o => ((Lookup.parameters e.document o).run s).2
  | .request o => ((Lookup.request e.document o).run s).2
  | .response o => ((Lookup.response e.document o).run s).2
  | .query o => ((Lookup.query e.document o).run s).2
  | .resolve call => ((e.answer call).run s).2
  | .typeReference call => ((e.typeReference call.node call.base call.suffix).run s).2

variable (e : Expander)

/-- A pass forgets the declared names and goes through the operations. -/
theorem run_models (catalog : Catalog) (s : Session) :
    (models e catalog).run s
      = (catalog.operations.foldlM (forOperation e) {}).run s.forgetNames := rfl

/-- After a task the session remembers of pointers only what the document says. -/
theorem Task.faithful_after {s : Session} (hs : s.Faithful e.document) (task : Task) :
    (task.after e s).Faithful e.document := by
  have hreading := quiet_reading e.document
  have hclaiming := grows_claiming e.document
  cases task with
  | models catalog =>
    rw [Task.after, run_models]
    exact (hclaiming.foldlM hclaiming.forOperation _ _ _).faithful hs
  | parameters o => exact (hreading.parameters o s).2.faithful hs
  | request o => exact (hreading.request o s).2.faithful hs
  | response o => exact (hreading.response o s).2.faithful hs
  | query o => exact (hreading.query o s).2.faithful hs
  | resolve call => exact (hclaiming.resolve _ _ _ _ s).faithful hs
  | typeReference call => exact (hreading.typeReference rfl _ _ _ s).2.faithful hs

/-- After any tasks the session remembers of pointers only what the document says. -/
theorem faithful_after_tasks {s : Session} (hs : s.Faithful e.document) (tasks : List Task) :
    (tasks.foldl (Task.after e) s).Faithful e.document := by
  induction tasks generalizing s with
  | nil => exact hs
  | cons task tasks ih =>
    rw [List.foldl_cons]
    exact ih (task.faithful_after e hs)

/-- Whatever a generator was asked before, and whether or not it failed then, a pass over a catalog
has the same outcome as in a new session, gives the same warnings, and declares the same names. -/
theorem models_after_tasks (tasks : List Task) (catalog : Catalog) :
    let s := tasks.foldl (Task.after e) {}
    ((models e catalog).run s).1 = ((models e catalog).run {}).1 ∧
      ((models e catalog).run s).2.warnings
        = s.warnings ++ ((models e catalog).run {}).2.warnings ∧
      ((models e catalog).run s).2.names = ((models e catalog).run {}).2.names := by
  intro s
  have hnew : Session.Faithful e.document {} := fun pointer target h => by simp at h
  have hs : s.Faithful e.document := faithful_after_tasks e hnew tasks
  -- With the names forgotten, only the memory and the past warnings tell the sessions apart.
  have halike : Session.Alike e.document s.warnings [] s.forgetNames {} :=
    ⟨rfl, hs, hnew, [], (List.append_nil _).symm, rfl⟩
  have hclaiming := oblivious_claiming e.document
  obtain ⟨houtcome, hafter⟩ :=
    hclaiming.foldlM hclaiming.forOperation catalog.operations {} _ _ _ _ halike
  obtain ⟨later, hwarnings, hwarnings'⟩ := hafter.warnings
  rw [List.nil_append] at hwarnings'
  rw [run_models, run_models]
  refine ⟨houtcome, ?_, hafter.names⟩
  rw [hwarnings, ← hwarnings']
  rfl

end Generation

end ClientGen
