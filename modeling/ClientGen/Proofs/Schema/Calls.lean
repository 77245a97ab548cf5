import ClientGen.Proofs.Schema.Reach

/-!
# What a schema calls for

What the expansion of a schema comes to, seen from the document alone.

* `Schema.Leads`: references lead from one schema to another.
* `Schema.PartOf`, `Schema.Contributes`: the parts of a schema put together from several, and the
  schemas that its properties and requirements come from in the end.
* `Schema.Reads`: the schemas whose required names are read for a declaration.
* `Expander.Job`, `Expander.Calls`: what there is to do at some level of an expansion, and what it
  calls for one level down.
-/

namespace ClientGen

namespace Schema

variable {document : Node} {root schema part target : Fields}

/-- References lead from one schema to another, which is no reference itself. -/
inductive Leads (document : Node) : Fields → Fields → Prop
  /-- A schema that is no reference. -/
  | here {schema : Fields} : pointer? schema = none → Leads document schema schema
  /-- A reference to a schema from which they lead on. -/
  | along {schema found target : Fields} {pointer : String} : pointer? schema = some pointer →
    Pointer.resolve document pointer = some (.object found) → Leads document found target →
    Leads document schema target

/-- What a schema put together from several says itself. -/
def own (schema : Fields) : Fields := schema.filter fun f => !f.1.same (.text Expander.allOfKey)

/-- The second schema is a part of the first one, which is put together from several. -/
inductive PartOf (document : Node) (whole : Fields) : Fields → Prop
  /-- What the schema says itself. -/
  | own : PartOf document whole (own whole)
  /-- What is listed, behind its references. -/
  | listed {member part : Fields} : member ∈ members whole Expander.allOfKey →
    Leads document member part → PartOf document whole part

/-- The second schema contributes its properties and requirements to the first one: it is a part, or
a part of a part, and not put together from several itself. -/
inductive Contributes (document : Node) : Fields → Fields → Prop
  /-- A part. -/
  | part {whole part : Fields} : PartOf document whole part → kind part ≠ .allOf →
    Contributes document whole part
  /-- What contributes to a part. -/
  | inner {whole middle part : Fields} : PartOf document whole middle → kind middle = .allOf →
    Contributes document middle part → Contributes document whole part

/-- For the declaration of the first schema, the required names of the second one are read. -/
inductive Reads (document : Node) (schema : Fields) : Fields → Prop
  /-- Those of an object itself. -/
  | object : kind schema = .object → Reads document schema schema
  /-- Those of all that contributes to a schema put together from several. -/
  | merged {part : Fields} : kind schema = .allOf → Contributes document schema part →
    Reads document schema part

/-- Where a schema leads is reached from where the schema is. -/
theorem Leads.reaches (h : Leads document schema target) (hschema : Reaches document root schema) :
    Reaches document root target := by
  induction h with
  | here => exact hschema
  | along hpointer hresolve _ ih => exact ih (hschema.target hpointer hresolve)

/-- A part that a schema is put together from is reached from where the schema is. -/
theorem PartOf.reaches (h : PartOf document schema part) (hschema : Reaches document root schema) :
    Reaches document root part := by
  cases h with
  | own => exact hschema.own
  | listed hmember hleads => exact hleads.reaches (hschema.part hmember)

/-- A schema that contributes to another one is reached from where that one is. -/
theorem Contributes.reaches (h : Contributes document schema part)
    (hschema : Reaches document root schema) : Reaches document root part := by
  induction h with
  | part hpart => exact hpart.reaches hschema
  | inner hmiddle _ _ ih => exact ih (hmiddle.reaches hschema)

end Schema

namespace Expander

open Schema

/-- What there is to do at some level of an expansion. -/
inductive Job where
  /-- To declare a schema. -/
  | declare (schema : Fields)
  /-- To type a node. -/
  | type (node : Node)

/-- The first job calls for the second one, one level down. -/
inductive Calls (document : Node) : Job → Job → Prop
  /-- In place of a reference, what it leads to is declared. -/
  | target {schema target : Fields} : kind schema = .reference → Leads document schema target →
    Calls document (.declare schema) (.declare target)
  /-- In place of a list, its items are declared. -/
  | items {schema : Fields} : kind schema = .array →
    Calls document (.declare schema) (.declare (items schema))
  /-- The declaration of an object types its properties. -/
  | property {schema : Fields} {key : Key} {node : Node} : kind schema = .object →
    (key, node) ∈ fieldsUnder schema "properties" → Calls document (.declare schema) (.type node)
  /-- So does the declaration of a schema put together from several. -/
  | merged {schema part : Fields} {key : Key} {node : Node} : kind schema = .allOf →
    Contributes document schema part → (key, node) ∈ fieldsUnder part "properties" →
    Calls document (.declare schema) (.type node)
  /-- The declaration of a choice types its members. -/
  | option {schema option : Fields} : kind schema = .oneOf → option ∈ (choices schema).2 →
    Calls document (.declare schema) (.type (.object option))
  /-- An object, also one put together from several, is typed by its name and declared. -/
  | named {schema : Fields} : kind schema = .object ∨ kind schema = .allOf →
    Calls document (.type (.object schema)) (.declare schema)
  /-- So is a schema with a structure behind a reference. -/
  | behind {schema target : Fields} : kind schema = .reference → Leads document schema target →
    (kind target).isStructural → Calls document (.type (.object schema)) (.declare target)
  /-- Any other schema behind a reference is typed in its place. -/
  | through {schema target : Fields} : kind schema = .reference → Leads document schema target →
    ¬ (kind target).isStructural → Calls document (.type (.object schema)) (.type (.object target))
  /-- The type of a choice is made of those of its members. -/
  | choice {schema option : Fields} : kind schema = .oneOf → option ∈ (choices schema).2 →
    Calls document (.type (.object schema)) (.type (.object option))
  /-- The type of a list is made of that of its items. -/
  | item {schema : Fields} : kind schema = .array →
    Calls document (.type (.object schema)) (.type (.object (Schema.items schema)))
  /-- The type of an object with free keys is made of that of its values. -/
  | value {schema value : Fields} : kind schema = .map →
    Fields.get? schema "additionalProperties" = some (.object value) → value ≠ [] →
    Calls document (.type (.object schema)) (.type (.object value))

end Expander

end ClientGen
