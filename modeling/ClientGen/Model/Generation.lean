import ClientGen.Model.Lookup
import ClientGen.Model.Module

/-!
# Generating models

A pass goes through the operations of a catalog in order. For each it expands up to three schemas,
what is sent, what comes back and the query parameters, under the name of its resource.

* `Generation.forOperation`: one operation.
* `Generation.models`: a pass.
-/

namespace ClientGen.Generation

/-- Expands one schema of an operation, if there is one: its declarations are added to the module,
and the type that refers to it comes back. -/
def expand (e : Expander) (types : OperationTypes) (label suffix : String) (models : ModelSet)
    (schema : Option Fields) : Expansion (ModelSet × Option String) :=
  match schema with
  | none => pure (models, none)
  | some schema => do
    let origin := label ++ " " ++ Naming.lowerCase suffix
    let ds ← e.resolve (.object schema) types.resource suffix origin
    let type ← e.typeReference (.object schema) types.resource suffix
    return (models.add types.module ds, some type.text)

/-- Expands the schemas of one operation. All of them are looked up first. -/
def forOperation (e : Expander) (models : ModelSet) (o : Operation) : Expansion ModelSet := do
  let resource := o.resource
  let types : OperationTypes := { resource, module := Naming.camelCase resource }
  let label := o.method ++ " " ++ o.documentPath
  let requestSchema ← Lookup.request e.document o
  let responseSchema ← Lookup.response e.document o
  let querySchema ← Lookup.query e.document o
  let (models, request) ← expand e types label "Request" models requestSchema
  let (models, response) ← expand e types label "Response" models responseSchema
  let (models, params) ← expand e types label "Params" models querySchema
  return { models with
    types := assign o { types with request, response, params } models.types }

/-- The models for all operations of a catalog. A pass starts with no declared names. -/
def models (e : Expander) (catalog : Catalog) : Expansion ModelSet := do
  modify Session.forgetNames
  catalog.operations.foldlM (forOperation e) {}

end ClientGen.Generation
