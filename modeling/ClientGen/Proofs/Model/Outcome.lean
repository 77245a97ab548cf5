import Mathlib.Logic.Relation
import ClientGen.Document.Loading
import ClientGen.Proofs.Document.TextKeys
import ClientGen.Proofs.Expansion.OpenTypes
import ClientGen.Proofs.Expansion.Required
import ClientGen.Proofs.Model.History
import ClientGen.Proofs.Model.Parameters

/-!
# Outcomes of a pass

How a pass over a document can end, whatever malformed operations, parameters and schemas stand in
it. The stack that a pass needs is taken to be large enough.

* `Operation.CanFail`: the failures that an operation can lead to, with their causes.
* `Catalog.exists_ofDocument`: a catalog can be made of every accepted document.
* `Generation.admits_models`: a pass returns, or fails because of one of its operations.
* `Generation.models_outcome`: the outcomes of a pass over an accepted document.
-/

namespace ClientGen

namespace Operation

/-- The schema is found for the operation: that of what is sent, of what comes back, or of the query
parameters. -/
inductive Finds (document : Node) (o : Operation) (schema : Fields) : Prop
  /-- It is found for what is sent. -/
  | request : ((Lookup.request document o).run {}).1 = .ok (some schema) → Finds document o schema
  /-- It is found for what comes back. -/
  | response : ((Lookup.response document o).run {}).1 = .ok (some schema) →
    Finds document o schema
  /-- It is found for the query parameters. -/
  | query : ((Lookup.query document o).run {}).1 = .ok (some schema) → Finds document o schema

/-- The failures that the schemas of an operation can lead to, with their causes. -/
inductive CanFail (e : Expander) (o : Operation) : Failure → Prop
  /-- A schema is nested too deeply. -/
  | tooDeep (origin : String) : CanFail e o (.tooDeep origin e.limit)
  /-- A listed parameter goes to a list or an object. -/
  | place : o.ListsCompound e.document → CanFail e o .notAScalar
  /-- A schema is come to whose required names have to be read and cannot be. -/
  | required {root schema part : Fields} : o.Finds e.document root →
    Relation.ReflTransGen (Expander.Calls e.document) (.declare root) (.declare schema) →
    Schema.Reads e.document schema part → Schema.requiredNames part = none →
    CanFail e o .notIterable

end Operation

namespace Document

variable {document : Node} {items : Fields}

/-- An accepted document has an object of paths. -/
theorem exists_of_validate (h : validate document = .ok document) :
    ∃ fields items, document = .object fields ∧
      Fields.get? fields "paths" = some (.object items) := by
  unfold validate at h
  split at h
  · rename_i fields
    split at h
    · cases h
    · rename_i hpaths
      refine ⟨fields, ?_⟩
      cases hget : Fields.get? fields "paths" with
      | none => simp [hget] at hpaths
      | some node =>
        cases node with
        | object items => exact ⟨items, rfl, rfl⟩
        | _ => simp [hget, Node.isObject] at hpaths
  · cases h

theorem exists_paths_of_validate (h : validate document = .ok document) :
    ∃ items, paths document = .ok items := by
  obtain ⟨fields, items, rfl, hget⟩ := exists_of_validate h
  exact ⟨items, by rw [paths, hget]⟩

/-- With text keys, the paths of an accepted document are texts. -/
theorem isText_of_mem_paths (hkeys : document.hasTextKeys)
    (hpaths : paths document = .ok items) {item : Key × Node} (hitem : item ∈ items) :
    item.1.isText := by
  unfold paths at hpaths
  split at hpaths
  · split at hpaths
    · obtain rfl := Except.ok.inj hpaths
      exact absurd hitem List.not_mem_nil
    · rename_i hget
      obtain rfl := Except.ok.inj hpaths
      have hmem := Node.hasTextKeys_object_iff.mp hkeys _ (Fields.mem_of_get? hget)
      exact (Node.hasTextKeys_object_iff.mp hmem.2 item hitem).1
    · cases hpaths
  · cases hpaths

end Document

/-- A catalog can be made of every accepted document with text keys, whatever stands in it. -/
theorem Catalog.exists_ofDocument {document : Node} (hkeys : document.hasTextKeys)
    (hvalid : Document.validate document = .ok document) (basePaths : List String) :
    ∃ catalog, Catalog.ofDocument document basePaths = .ok catalog := by
  obtain ⟨items, hpaths⟩ := Document.exists_paths_of_validate hvalid
  rw [ofDocument]
  rcases hos : Document.operations document (BasePath.ofList basePaths) with f | os
  · -- Only a path that is no text could not be stripped.
    exfalso
    rw [Document.operations, hpaths] at hos
    obtain ⟨place, hplace, hfails⟩ := exists_of_mapM_eq_error hos
    obtain ⟨item, hitem, hplace⟩ := List.mem_flatMap.mp hplace
    obtain ⟨raw, -, rfl⟩ := List.mem_map.mp hplace
    have htext := Document.isText_of_mem_paths hkeys hpaths hitem
    simp only [Document.operation, Document.strippedPath, htext, Bool.or_true, if_true] at hfails
    cases hfails
  · exact ⟨_, rfl⟩

namespace Generation

open Expansion

variable {e : Expander} {o : Operation}

/-- A schema that is found for an operation is expanded, or the operation can fail in this way. -/
theorem admits_expand {found : Option Fields}
    (hfound : ∀ schema, found = some schema → o.Finds e.document schema)
    (types : OperationTypes) (label suffix : String) (models : ModelSet) :
    Admits e.document (o.CanFail e) (fun _ => True) (expand e types label suffix models found) := by
  cases found with
  | none => exact admits_pure trivial
  | some root =>
    have hroot := hfound root rfl
    -- All that an expansion comes to, the schema at its start calls for.
    have hresolve : Admits e.document (o.CanFail e) (fun _ => True)
        (e.resolve (.object root) types.resource suffix
          (label ++ " " ++ Naming.lowerCase suffix)) :=
      (e.admits_level _ (fun _ => Relation.ReflTransGen (Expander.Calls e.document) (.declare root))
        (fun _ _ => .tooDeep) (fun _ _ _ hjob hcall => hjob.tail hcall)
        (fun _ _ _ hjob hreads hnone => .required hroot hjob hreads hnone) e.levels).1 _ _ _ .refl
    exact hresolve.bind fun _ _ => (e.admits_typeReference _ _ _).bind fun _ _ =>
      admits_pure trivial

/-- The schemas of an operation are expanded, or it can fail in this way. If they are, none of its
parameters goes to a list or an object. -/
theorem admits_forOperation {items : Fields} (hpaths : Document.paths e.document = .ok items)
    (models : ModelSet) (o : Operation) :
    Admits e.document (o.CanFail e) (fun _ => ¬ o.ListsCompound e.document)
      (forOperation e models o) := by
  -- Schemas are looked for in the session of the pass, with the same result as in a new one.
  have hsteady := steady_reading e.document
  have hplace : ∀ f, f = .notAScalar ∧ o.ListsCompound e.document → o.CanFail e f := by
    rintro _ ⟨rfl, hlists⟩
    exact .place hlists
  have hrequest := ((hsteady.request o).admits (Lookup.admits_request hpaths o)).mono hplace
    fun _ => id
  have hresponse : Admits e.document (o.CanFail e) _ _ :=
    (hsteady.response o).admits (Lookup.admits_response hpaths o)
  have hquery := ((hsteady.query o).admits (Lookup.admits_query hpaths o)).mono hplace fun _ => id
  refine hrequest.bind fun sent hsent => hresponse.bind fun received hreceived => ?_
  refine hquery.bind fun asked hasked => ?_
  obtain ⟨hnone, hasked⟩ := hasked
  refine (admits_expand (fun schema h => .request (h ▸ hsent.2)) _ _ _ _).bind fun first _ => ?_
  refine (admits_expand (fun schema h => .response (h ▸ hreceived.2)) _ _ _ _).bind
    fun second _ => ?_
  refine (admits_expand (fun schema h => .query (h ▸ hasked)) _ _ _ _).bind fun third _ => ?_
  exact admits_pure hnone

/-- A pass expands the schemas of all operations, or one of them can fail in this way. If it does
expand them, none of the operations has a parameter that goes to a list or an object. -/
theorem admits_models {items : Fields} (hpaths : Document.paths e.document = .ok items)
    (catalog : Catalog) :
    Admits e.document (fun f => ∃ o ∈ catalog.operations, o.CanFail e f)
      (fun _ => ∀ o ∈ catalog.operations, ¬ o.ListsCompound e.document) (models e catalog) := by
  have hfold := admits_foldlM_forall (fun models o ho =>
    (admits_forOperation hpaths models o).mono
      (fun f hf => (⟨o, ho, hf⟩ : ∃ o ∈ catalog.operations, o.CanFail e f)) fun _ => id) {}
  constructor
  · intro s t result hs hrun
    rw [run_models] at hrun
    exact hfold.returns (by exact hs) hrun
  · intro s t f hs hrun
    rw [run_models] at hrun
    exact hfold.fails (by exact hs) hrun

/-- Whatever stands in an accepted document with text keys, as one read from JSON is, a catalog can
be made of it. A pass over the catalog returns, or it fails because of one of the operations: a
schema is nested too deeply, a parameter goes to a list or an object, or required names cannot be
read. The last two causes cannot be passed over: if it returns, no parameter goes to a list or an
object, and a schema whose required names cannot be read is never declared. Malformed schemas become
open types. The stack that nested calls take is not modelled in expansions, though `Limit` accounts
for it in the reading of JSON and YAML: a very long chain of references, or of parts within parts,
can exhaust it before a pass ends in one of these ways. -/
theorem models_outcome {document : Node} (hkeys : document.hasTextKeys)
    (hvalid : Document.validate document = .ok document) (basePaths : List String) :
    ∃ catalog, Catalog.ofDocument document basePaths = .ok catalog ∧ ∀ limit,
      let e : Expander := ⟨document, limit⟩
      let pass := ((models e catalog).run {}).1
      (((∃ result, pass = .ok result) ∧ ∀ o ∈ catalog.operations, ¬ o.ListsCompound document) ∨
        ∃ f, pass = .error f ∧ ∃ o ∈ catalog.operations, o.CanFail e f) ∧
      (0 ≤ limit → e.Degrades ∧
        ∀ schema part, Schema.Reads document schema part → Schema.requiredNames part = none →
        ∀ base suffix origin s, s.Faithful document → Naming.interfaceName base suffix ∉ s.names →
          ((e.resolve (.object schema) base suffix origin).run s).1 = .error .notIterable) := by
  obtain ⟨catalog, hcatalog⟩ := Catalog.exists_ofDocument hkeys hvalid basePaths
  obtain ⟨items, hpaths⟩ := Document.exists_paths_of_validate hvalid
  refine ⟨catalog, hcatalog, fun limit => ⟨?_, fun hlimit => ⟨?_, ?_⟩⟩⟩
  · have hadmits := admits_models (e := ⟨document, limit⟩) hpaths catalog
    rcases hrun : (models ⟨document, limit⟩ catalog).run {} with ⟨f | result, t⟩
    · exact .inr ⟨f, rfl, hadmits.fails (Session.faithful_empty document) hrun⟩
    · exact .inl ⟨⟨result, rfl⟩, (hadmits.returns (Session.faithful_empty document) hrun).2⟩
  · exact Expander.degrades _ hlimit
  · intro schema part hreads hnone base suffix origin s hs hfree
    exact Expander.resolve_of_reads (e := ⟨document, limit⟩) hs hlimit hreads hnone hfree origin

/-- An object that requires a number. -/
def requiringNumber : Fields :=
  [(.text "properties", .object [(.text "id", .list [])]), (.text "required", .int 5)]

/-- A document with one operation, which is malformed in many ways and answers with an object that
requires a number. -/
def malformed : Node :=
  .object [(.text "openapi", .text "3.0.0"), (.text "paths", .object [
    (.text "/gadgets", .list []),
    (.text "/widgets", .object [
      (.text "post", .null),
      (.text "parameters", .int 5),
      (.text "get", .object [
        (.text "tags", .object []),
        (.text "parameters", .list [.null, .object [(.text "name", .int 3)]]),
        (.text "requestBody", .text "none"),
        (.text "responses", .object [
          (.text "200", .object [(.text "schema", .object requiringNumber)])])])])])]

/-- A pass over the malformed document ends in one of the ways. In its schema, the property has an
open type, and the required names cannot be read. -/
theorem models_outcome_malformed :
    malformed.hasTextKeys ∧ Document.validate malformed = .ok malformed ∧
      ∃ catalog, Catalog.ofDocument malformed [] = .ok catalog ∧
        let e : Expander := ⟨malformed, 64⟩
        let pass := ((models e catalog).run {}).1
        (((∃ result, pass = .ok result) ∧ ∀ o ∈ catalog.operations, ¬ o.ListsCompound malformed) ∨
          ∃ f, pass = .error f ∧ ∃ o ∈ catalog.operations, o.CanFail e f) ∧
        (∃ type t, (e.propertyType 1 (.list []) ⟨"WidgetId", "", []⟩).run {} = (.ok { type }, t) ∧
          type.IsOpen) ∧
        ((e.resolve (.object requiringNumber) "Widget" "Response" "").run {}).1
          = .error .notIterable := by
  refine ⟨rfl, rfl, ?_⟩
  obtain ⟨catalog, hcatalog, h⟩ := models_outcome (by rfl : malformed.hasTextKeys) rfl []
  obtain ⟨houtcome, hschemas⟩ := h 64
  obtain ⟨hdegrades, hreads⟩ := hschemas (by decide)
  refine ⟨catalog, hcatalog, houtcome, ?_, ?_⟩
  · exact hdegrades.typed (.notAnObject rfl) (Session.faithful_empty malformed) 0 _
  · exact hreads requiringNumber _ (.object rfl) rfl _ _ _ {} (Session.faithful_empty malformed)
      List.not_mem_nil

/-- Not every pass over an accepted document with text keys returns or fails because a schema is
nested too deeply. -/
theorem not_forall_models_tooDeep :
    ¬ ∀ (document : Node) (basePaths : List String) (limit : Int), document.hasTextKeys →
      Document.validate document = .ok document →
      ∃ catalog, Catalog.ofDocument document basePaths = .ok catalog ∧
        ((∃ result, ((models ⟨document, limit⟩ catalog).run {}).1 = .ok result) ∨
          ∃ origin, ((models ⟨document, limit⟩ catalog).run {}).1
            = .error (.tooDeep origin limit)) := by
  intro hall
  obtain ⟨catalog, hcatalog, hpass⟩ := hall malformed [] 64 rfl rfl
  obtain ⟨catalog', hcatalog', hfails⟩ : ∃ catalog, Catalog.ofDocument malformed [] = .ok catalog ∧
      ((models ⟨malformed, 64⟩ catalog).run {}).1 = .error .notIterable := ⟨_, rfl, rfl⟩
  obtain rfl := Except.ok.inj (hcatalog.symm.trans hcatalog')
  rw [hfails] at hpass
  rcases hpass with ⟨result, hresult⟩ | ⟨origin, horigin⟩
  · cases hresult
  · cases horigin

end Generation

end ClientGen
