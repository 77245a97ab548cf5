import ClientGen.Proofs.Document.Trails
import ClientGen.Proofs.Expansion.Outcome
import ClientGen.Proofs.Model.History

/-!
# Two ways to follow references

Parameters and bodies are dereferenced as nodes; schemas are followed as schemas, which are
references by their kind. Where every reference is a text, both ways go by the same pointers and
come to the same end.

* `Session.Reached`: the sessions that the work on a document comes to.
* `Expander.fst_dereferenceWithin`: after any number of steps, both ways have found the same.
* `Expander.dereference_and_follow`: what is found depends on the chain alone: nothing if the chain
  breaks, and otherwise the object that it arrives at, which is its own end.
-/

namespace ClientGen

open Reference

/-- The sessions that the work on a document comes to. -/
inductive Session.Reached (e : Expander) : Session → Prop
  /-- A new session. -/
  | new : Reached e {}
  /-- After a query, a lookup of a pointer or of the end of a chain. -/
  | query {s : Session} (query : Query) : Reached e s → Reached e (query.after e.document s)
  /-- After the references of a schema were followed. -/
  | follow {s : Session} (schema : Fields) (chain : List String) : Reached e s →
    Reached e ((e.follow schema chain).run s).2
  /-- After a task, which may have failed. -/
  | task {s : Session} (task : Generation.Task) : Reached e s → Reached e (task.after e s)

variable {e : Expander} {s t : Session}

/-- Whatever was done before, what is remembered of pointers is what the document says. -/
theorem Session.Reached.faithful (h : s.Reached e) : s.Faithful e.document := by
  have hreading := Expansion.quiet_reading e.document
  induction h with
  | new => exact Session.faithful_empty e.document
  | query query _ ih =>
    cases query with
    | lookUp pointer => exact (lookUp_precedes e.document pointer _).2.faithful ih
    | dereference node => exact (hreading.dereference node _).2.faithful ih
  | follow schema chain _ ih => exact (e.quiet_follow schema chain _).2.faithful ih
  | task task _ ih => exact task.faithful_after e ih

namespace Expander

variable {fields : Fields}

/-- A node and a schema are followed alike, in two sessions that may remember different pointers:
either end is come to at the same step. -/
theorem fst_dereferenceWithin (hdocument : e.document.hasTextPointers)
    (hfields : (Node.object fields).hasTextPointers) (hs : s.Faithful e.document)
    (ht : t.Faithful e.document) (fuel : Nat) (seen : List String) :
    (dereferenceWithin e.document fuel seen (.object fields) s).1
      = (e.followWithin fuel fields seen t).1.1.map .object := by
  induction fuel generalizing fields seen s t with
  | zero => rfl
  | succ fuel ih =>
    rw [dereferenceWithin, followWithin_succ, Schema.pointer?]
    cases hget : Fields.get? fields refKey with
    | none => rfl
    | some value =>
      obtain ⟨pointer, rfl⟩ := Node.exists_text_of_get? hfields hget
      dsimp only [Option.bind_some, Node.text?]
      by_cases hseen : pointer ∈ seen
      · rw [if_pos (List.contains_iff_mem.mpr hseen), if_pos hseen]
        rfl
      · rw [if_neg (by simpa using hseen), if_neg hseen, Session.bind_apply]
        -- Both lookups give the answer of the document, whatever is remembered.
        have hanswer : (lookUp e.document pointer s).1 = (lookUp e.document pointer t).1 :=
          (lookUp_eq hs pointer).trans (lookUp_eq ht pointer).symm
        have hs' := (lookUp_precedes e.document pointer s).2.faithful hs
        have ht' := (lookUp_precedes e.document pointer t).2.faithful ht
        rcases hls : lookUp e.document pointer s with ⟨answer, s'⟩
        rcases hlt : lookUp e.document pointer t with ⟨answer', t'⟩
        rw [hls, hlt] at hanswer
        rw [hls] at hs'
        rw [hlt] at ht'
        obtain rfl : answer = answer' := hanswer
        cases answer with
        | none => rfl
        | some found =>
          have hresolve := (lookUp_eq_some_iff hs).mp (by rw [hls])
          exact ih (Pointer.hasTextPointers_of_resolve hdocument hresolve) hs' ht' (pointer :: seen)

/-- In a document where every reference is a text, also in the object at the start, the end of a
chain of references is decided by the document: nothing is found exactly when the chain breaks, and
otherwise the object that it arrives at. In every session that the work on the document comes to,
the chain is followed to this end as a node and as a schema, and no larger bound on its length would
make a difference. What is found stays what it is when it is dereferenced again, where no object
counts as null. -/
theorem dereference_and_follow (hdocument : e.document.hasTextPointers)
    (hfields : (Node.object fields).hasTextPointers) :
    ∃ found : Option Fields,
      (found = none ↔ Breaks e.document fields) ∧
      (∀ target, found = some target ↔ Arrives e.document fields target) ∧
      ∀ s, s.Reached e →
        (dereference e.document (.object fields) s).1 = found.map .object ∧
        (∃ chain, ((e.follow fields []).run s).1 = .ok (found, chain)) ∧
        (∀ fuel, chainBound e.document ≤ fuel →
          (dereferenceWithin e.document fuel [] (.object fields) s).1 = found.map .object ∧
          (e.followWithin fuel fields [] s).1.1 = found) ∧
        (dereference e.document ((found.map .object).getD .null) s).1.getD .null
          = (found.map .object).getD .null := by
  have hnew := Session.faithful_empty e.document
  refine ⟨(e.followWithin (chainBound e.document) fields [] {}).1.1, ?_⟩
  generalize hfound : (e.followWithin (chainBound e.document) fields [] {}).1.1 = found
  -- In any session, and with any larger bound, the same is found.
  have hend : ∀ s, s.Faithful e.document → ∀ fuel, chainBound e.document ≤ fuel →
      (dereferenceWithin e.document fuel [] (.object fields) s).1 = found.map .object := by
    intro s hs fuel hfuel
    rw [dereferenceWithin_of_chainBound_le hs hfuel, ← hfound]
    exact fst_dereferenceWithin hdocument hfields hs hnew _ []
  have hfollow : ∀ s, s.Faithful e.document → ∀ fuel, chainBound e.document ≤ fuel →
      (e.followWithin fuel fields [] s).1.1 = found := by
    intro s hs fuel hfuel
    refine Option.map_injective (fun _ _ => Node.object.inj) ?_
    rw [← fst_dereferenceWithin hdocument hfields hs hs fuel []]
    exact hend s hs fuel hfuel
  have hnode := hend {} hnew _ (Nat.le_refl _)
  change (dereference e.document (.object fields) {}).1 = _ at hnode
  refine ⟨?_, fun target => ?_, fun s hreached => ?_⟩
  · rw [← dereference_eq_none_iff hdocument hfields hnew, hnode, Option.map_eq_none_iff]
  · rw [← dereference_eq_object_iff hnew, hnode]
    exact (Option.map_injective (fun _ _ => Node.object.inj)).eq_iff (b := some target) |>.symm
  · have hs := hreached.faithful
    refine ⟨hend s hs _ (Nat.le_refl _), ?_, fun fuel hfuel => ?_, ?_⟩
    · refine ⟨(e.followWithin (chainBound e.document) fields [] s).1.2, ?_⟩
      rw [run_follow]
      exact congrArg Except.ok (Prod.ext (hfollow s hs _ (Nat.le_refl _)) rfl)
    · exact ⟨hend s hs fuel hfuel, hfollow s hs fuel hfuel⟩
    · cases found with
      | none => rfl
      | some target =>
        obtain ⟨-, -, hnone⟩ := (dereference_eq_object_iff hnew).mp hnode
        change (dereferenceWithin e.document (e.document.pointers.length + 1 + 1) []
          (.object target) s).1.getD .null = .object target
        rw [dereferenceWithin, hnone]
        rfl

/-- A document with a ring of two schemas, one of which names the other one in an odd way, a schema
outside that leads into the ring, and one that leads to an object by way of another one. -/
def ringDocument : Node :=
  .object [(.text "In", .object [(.text "$ref", .text "#/A")]),
    (.text "A", .object [(.text "$ref", .text "#//B")]),
    (.text "B", .object [(.text "$ref", .text "#/A")]),
    (.text "Out", .object [(.text "$ref", .text "#/End")]),
    (.text "End", .object [(.text "type", .text "string")])]

/-- A reference. -/
def referenceTo (pointer : String) : Fields := [(.text "$ref", .text pointer)]

theorem hasTextPointers_ringDocument : ringDocument.hasTextPointers := by decide

/-- From outside the ring the chain breaks at the second schema in it. -/
theorem breaks_ringDocument : Breaks ringDocument (referenceTo "#/In") :=
  ⟨["#//B", "#/A", "#/In"], referenceTo "#/A", "#/A",
    ((Trail.here.along rfl rfl).along rfl rfl).along rfl rfl, rfl, .inl (by decide)⟩

theorem arrives_ringDocument :
    Arrives ringDocument (referenceTo "#/Out") [(.text "type", .text "string")] :=
  ⟨["#/End", "#/Out"], (Trail.here.along rfl rfl).along rfl rfl, rfl⟩

/-- In a session that remembers a part of the ring, nothing is found from outside of it, and an
object is found by way of another one, both times as a node and as a schema. -/
theorem dereference_and_follow_ring :
    let e : Expander := { document := ringDocument, limit := 10 }
    let s := (Query.lookUp "#/A").after ringDocument {}
    let found : Fields := [(.text "type", .text "string")]
    e.document.hasTextPointers ∧ (Node.object (referenceTo "#/In")).hasTextPointers ∧
      (Node.object (referenceTo "#/Out")).hasTextPointers ∧ s.Reached e ∧ s.knows "#/A" ∧
      (dereference ringDocument (.object (referenceTo "#/In")) s).1 = none ∧
      (∃ chain, ((e.follow (referenceTo "#/In") []).run s).1 = .ok (none, chain)) ∧
      (dereference ringDocument (.object (referenceTo "#/Out")) s).1 = some (.object found) ∧
      ∃ chain, ((e.follow (referenceTo "#/Out") []).run s).1 = .ok (some found, chain) := by
  intro e s found
  have hin : (Node.object (referenceTo "#/In")).hasTextPointers := by decide
  have hout : (Node.object (referenceTo "#/Out")).hasTextPointers := by decide
  have hreached : s.Reached e := .query (.lookUp "#/A") .new
  -- The one chain breaks in the ring, the other arrives outside it.
  refine ⟨hasTextPointers_ringDocument, hin, hout, hreached, rfl, ?_⟩
  obtain ⟨broken, hbroken, -, hends⟩ :=
    dereference_and_follow (e := e) hasTextPointers_ringDocument hin
  obtain rfl := hbroken.mpr breaks_ringDocument
  obtain ⟨arrived, -, harrived, hends'⟩ :=
    dereference_and_follow (e := e) hasTextPointers_ringDocument hout
  obtain rfl := (harrived found).mpr arrives_ringDocument
  obtain ⟨hnode, hschema, -⟩ := hends s hreached
  obtain ⟨hnode', hschema', -⟩ := hends' s hreached
  exact ⟨hnode, hschema, hnode', hschema'⟩

end Expander

end ClientGen
