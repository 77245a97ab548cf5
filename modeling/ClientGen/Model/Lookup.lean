import ClientGen.Catalog
import ClientGen.Schema.Expansion

/-!
# Schemas of an operation

Where the document says what an operation receives and answers.

* `Lookup.parameters`: the parameters of an operation, those of its path included.
* `Lookup.request`: the schema of what is sent.
* `Lookup.response`: the schema of what comes back.
* `Lookup.query`: the schema of the query parameters.
-/

namespace ClientGen.Lookup

/-- Media types whose schema is taken before that of any other. -/
def preferredMedia : List String := ["application/json", "*/*"]

/-- The object under the key `schema` of a node. -/
def schemaOf (media : Node) : Option Fields := (media.get? "schema").bind Node.object?

/-- The schema of a content: that of a preferred media type, else of the first one that has one. -/
def contentSchema (content : Option Node) : Option Fields :=
  match content with
  | some (.object fields) =>
    (preferredMedia.filterMap (Fields.get? fields) ++ fields.map (·.2)).findSome? schemaOf
  | _ => none

/-- The members of a parameter that describe its type when it has no schema. -/
def ownTypeKeys : List String := ["type", "format", "items", "enum", "nullable"]

/-- The schema of a parameter, with the description of the parameter. -/
def parameterSchema (parameter : Fields) : Fields :=
  let schema := match Fields.get? parameter "schema" with
    | some (.object schema) => schema
    | _ => ownTypeKeys.filterMap fun k =>
      (Fields.get? parameter k).map fun v => (Key.text k, v)
  match (Fields.get? parameter "description").bind Node.nonEmptyText? with
  | some description => Fields.put schema (.text "description") (.text description)
  | none => schema

/-- The name of a parameter. -/
def nameOf (parameter : Fields) : String :=
  ((Fields.get? parameter "name").bind Node.text?).getD ""

/-- Is the parameter marked as required? -/
def isRequired (parameter : Fields) : Bool :=
  match Fields.get? parameter "required" with
  | some (.bool true) => true
  | _ => false

/-- Does the parameter go to this place? -/
def goesTo (place : String) (parameter : Fields) : Bool :=
  (Fields.get? parameter "in").bind Node.text? = some place

/-- Parameters as the properties of one object schema, in their order. -/
def objectOf (parameters : List Fields) : Fields :=
  [(.text "type", .text "object"),
    (.text "properties", .object (Fields.ofList (parameters.map fun p =>
      (.text (nameOf p), .object (parameterSchema p))))),
    (.text "required", .list ((parameters.filter isRequired).map fun p => .text (nameOf p)))]

/-- The schema of an object made of some parameters; none without parameters. -/
def objectOf? : List Fields → Option Fields
  | [] => none
  | ps => some (objectOf ps)

/-- The node at the end of a chain of references. -/
def dereference (document : Node) (node : Node) : Expansion (Option Node) := fun s =>
  let (r, s) := Reference.dereference document node s
  (.ok r, s)

/-- What tells parameters apart: the name and the place. -/
structure ParameterId where
  /-- The name. -/
  name : String
  /-- The place, the null key if none is given. -/
  place : Key

/-- Do two identifications mean the same parameter? -/
def ParameterId.same (a b : ParameterId) : Bool := a.name == b.name && a.place.same b.place

/-- Sets a parameter. One that is already there keeps its position. -/
def put (id : ParameterId) (parameter : Fields) :
    List (ParameterId × Fields) → List (ParameterId × Fields)
  | [] => [(id, parameter)]
  | (i, p) :: rest =>
    if i.same id then (i, parameter) :: rest else (i, p) :: put id parameter rest

/-- What tells a parameter apart, if it has a name. Its place has to be a scalar. -/
def parameterId? (parameter : Fields) : Except Failure (Option ParameterId) :=
  match Fields.get? parameter "name" with
  | some (.text name) =>
    match Fields.get? parameter "in" with
    | none => .ok (some ⟨name, .null⟩)
    | some place => match place.key? with
      | some key => .ok (some ⟨name, key⟩)
      | none => .error .notAScalar
  | _ => .ok none

/-- Adds the parameters of a list to those already known, behind their references. Items that are
no named object are left out. -/
def collect (document : Node) (known : List (ParameterId × Fields)) (source : Option Node) :
    Expansion (List (ParameterId × Fields)) :=
  match source with
  | some (.list nodes) => nodes.foldlM (fun known node => do
    match ← dereference document node with
    | some (.object parameter) =>
      match ← ofExcept (parameterId? parameter) with
      | some id => return put id parameter known
      | none => return known
    | _ => return known) known
  | _ => pure known

/-- The parameters of an operation: those of its path, then its own. An own parameter replaces one
of the path with the same name and place. -/
def parameters (document : Node) (o : Operation) : Expansion (List Fields) := do
  let item ← ofExcept (o.pathItem document)
  let raw ← ofExcept (o.raw document)
  let known ← collect document [] (Fields.get? item "parameters")
  let known ← collect document known (Fields.get? raw "parameters")
  return known.map (·.2)

/-- The schema of what an operation sends: of its request body, else of its body parameter, else of
all its form parameters together. -/
def request (document : Node) (o : Operation) : Expansion (Option Fields) := do
  let raw ← ofExcept (o.raw document)
  let body ← match Fields.get? raw "requestBody" with
    | some node => dereference document node
    | none => pure none
  match contentSchema (body.bind (·.get? "content")) with
  | some schema => return some schema
  | none => do
    let ps ← parameters document o
    match (ps.filter (goesTo "body")).findSome? fun p => schemaOf (.object p) with
    | some schema => return some schema
    | none => return objectOf? (ps.filter (goesTo "formData"))

/-- The responses by status code. Codes that are written as numbers count as texts. -/
def responsesByCode (fields : Fields) : Fields :=
  Fields.ofList (fields.map fun m => (.text m.1.label, m.2))

/-- The status codes of success, in the order in which they are asked for a schema. -/
def successCodes (responses : Fields) : List String :=
  let codes := responses.map fun m => m.1.label
  let preferred := ["200", "201"].filter codes.contains
  let others := codes.filter fun c =>
    Text.startsWith ['2'] c.toList && c != "200" && c != "201"
  preferred ++ others.mergeSort (fun a b => !(b < a)) ++ ["default"]

/-- The schema of a response: of its content, else its own. -/
def responseSchema (response : Node) : Option Fields :=
  match contentSchema (response.get? "content") with
  | some schema => some schema
  | none => schemaOf response

/-- The schema of the first of some responses that has one. -/
def firstSchema (document : Node) (responses : Fields) : List String → Expansion (Option Fields)
  | [] => pure none
  | code :: codes => do
    let response ← match Fields.get? responses code with
      | some node => dereference document node
      | none => pure none
    match response.bind responseSchema with
    | some schema => return some schema
    | none => firstSchema document responses codes

/-- The schema of what an operation answers: of the first successful response that has one, else of
the default response. -/
def response (document : Node) (o : Operation) : Expansion (Option Fields) := do
  let raw ← ofExcept (o.raw document)
  match Fields.get? raw "responses" with
  | some (.object fields) =>
    let responses := responsesByCode fields
    firstSchema document responses (successCodes responses)
  | _ => return none

/-- The schema of the query parameters of an operation, if it has any. -/
def query (document : Node) (o : Operation) : Expansion (Option Fields) := do
  let ps ← parameters document o
  return objectOf? (ps.filter (goesTo "query"))

end ClientGen.Lookup
