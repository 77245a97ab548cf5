import ClientGen.Document.Reference

/-!
# Kinds of schemas

Every schema node belongs to exactly one kind, decided in a fixed order.

* `Schema.Kind`: the kinds.
* `Schema.typeAndNullability`: the declared type of a schema and whether null is allowed besides.
* `Schema.kind`: the kind of an object, `Schema.kindOfNode` of any node.
* `Schema.members`, `Schema.items`, `Schema.requiredNames`: the parts of a schema.
-/

namespace ClientGen.Schema

/-- The kinds of schema nodes. -/
inductive Kind where
  /-- A reference to another schema. -/
  | reference
  /-- A schema put together from several. -/
  | allOf
  /-- A choice between schemas. -/
  | oneOf
  /-- A list of values. -/
  | enumeration
  /-- A list of items. -/
  | array
  /-- An object with named properties. -/
  | object
  /-- An object with free keys. -/
  | map
  /-- A basic type. -/
  | primitive
  /-- Anything else. -/
  | unknown
deriving DecidableEq, Repr

/-- The name of a kind. -/
def Kind.name : Kind → String
  | .reference => "reference"
  | .allOf => "allOf"
  | .oneOf => "oneOf"
  | .enumeration => "enum"
  | .array => "array"
  | .object => "object"
  | .map => "map"
  | .primitive => "primitive"
  | .unknown => "unknown"

/-- Schemas of these kinds get a declaration of their own when a property refers to them. -/
def Kind.isStructural : Kind → Bool
  | .object | .allOf | .oneOf => true
  | _ => false

/-- The basic types and the types that generated code uses for them. -/
def primitiveTypes : List (String × String) :=
  [("string", "string"), ("number", "number"), ("integer", "number"), ("boolean", "boolean"),
    ("null", "null")]

/-- The objects in the list under a key. -/
def members (schema : Fields) (key : String) : List Fields :=
  match Fields.get? schema key with
  | some (.list xs) => xs.filterMap Node.object?
  | _ => []

/-- The schema of the items of a list; the empty schema if none is given. -/
def items (schema : Fields) : Fields :=
  match Fields.get? schema "items" with
  | some (.object fields) => fields
  | _ => []

/-- The pointer of a reference. -/
def pointer? (schema : Fields) : Option String :=
  (Fields.get? schema refKey).bind Node.text?

/-- The items of a type list that are not the word for null. -/
def nonNull (types : List Node) : List Node :=
  types.filter fun t => t.text? ≠ some "null"

/-- The declared type of a schema, if it is a word, and whether null is allowed besides. Of a list
of types the first that is not null counts, and the mention of null allows it. -/
def typeAndNullability (schema : Fields) : Option String × Bool :=
  let nullable := ((Fields.get? schema "nullable").map Node.isTrue).getD false
  match Fields.get? schema "type" with
  | some (.list types) =>
    match nonNull types with
    | t :: rest => (t.text?, nullable || rest.length + 1 < types.length)
    | [] => if types.isEmpty then (none, nullable) else (some "null", true)
  | some (.text t) => (some t, nullable)
  | _ => (none, nullable)

/-- Does the schema list values? -/
def listsValues (schema : Fields) : Bool :=
  match Fields.get? schema "enum" with
  | some (.list (_ :: _)) => true
  | _ => false

/-- Does the schema have named properties? -/
def hasProperties (schema : Fields) : Bool :=
  match Fields.get? schema "properties" with
  | some (.object (_ :: _)) => true
  | _ => false

/-- Does the schema allow free keys? -/
def allowsFreeKeys (schema : Fields) : Bool :=
  match Fields.get? schema "additionalProperties" with
  | some (.bool true) => true
  | some (.object _) => true
  | _ => false

/-- The kind of a schema: the first that applies, in the order of the tests. -/
def kind (schema : Fields) : Kind :=
  let type := (typeAndNullability schema).1
  if (pointer? schema).isSome then .reference
  else if !(members schema "allOf").isEmpty then .allOf
  else if !(members schema "oneOf").isEmpty || !(members schema "anyOf").isEmpty then .oneOf
  else if listsValues schema then .enumeration
  else if type = some "array" || Fields.has schema "items" then .array
  else if hasProperties schema then .object
  else if allowsFreeKeys schema then .map
  else if type.any fun t => (primitiveTypes.lookup t).isSome then .primitive
  else .unknown

/-- The kind of any node. Only objects are schemas. -/
def kindOfNode : Node → Kind
  | .object schema => kind schema
  | _ => .unknown

/-- The key and the members of a choice. -/
def choices (schema : Fields) : String × List Fields :=
  match members schema "oneOf" with
  | [] => ("anyOf", members schema "anyOf")
  | ms => ("oneOf", ms)

/-- The members of an object under a key, if it holds an object. -/
def fieldsUnder (schema : Fields) (key : String) : Fields :=
  ((Fields.get? schema key).map Node.fields).getD []

/-- The texts among the items of a node: of a list its texts, of an object its text keys, of a
text its characters. What counts as false has no items; other nodes cannot be asked for any. -/
def textItems? (node : Node) : Option (List String) :=
  if node.isTrue then
    match node with
    | .list xs => some (xs.filterMap Node.text?)
    | .object fields => some ((fields.filter fun f => f.1.isText).map fun f => f.1.label)
    | .text s => some (s.toList.map fun c => String.ofList [c])
    | _ => none
  else some []

/-- The names of the properties that a schema requires. -/
def requiredNames (schema : Fields) : Option (List String) :=
  match Fields.get? schema "required" with
  | some node => textItems? node
  | none => some []

end ClientGen.Schema
