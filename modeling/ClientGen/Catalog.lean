import ClientGen.BasePath
import ClientGen.Failure
import ClientGen.Naming.Names

/-!
# Catalog of operations

Every pair of a path and an HTTP method in a document is an operation. Operations are grouped by
tag; tags and operations keep the order of the document.

* `Operation`: one operation.
* `Document.operations`: all operations in document order.
* `Catalog`, `Catalog.ofOperations`, `Catalog.ofDocument`: the operations by tag.
* `Operation.pathItem`, `Operation.raw`: the members of the document behind an operation.
-/

namespace ClientGen

/-- The methods of HTTP in small letters. -/
def httpMethods : List String :=
  ["get", "put", "post", "delete", "options", "head", "patch", "trace"]

/-- One operation. -/
structure Operation where
  /-- The path without the stripped beginning. -/
  path : String
  /-- The key of the path in the document. -/
  pathKey : Key
  /-- The HTTP method in capital letters. -/
  method : String
  /-- The tag that the operation is grouped under. -/
  tag : String
  /-- The id, if one is given. -/
  operationId : Option String := none
  /-- The summary, if one is given. -/
  summary : Option String := none
  /-- The description, if one is given. -/
  description : Option String := none
deriving DecidableEq, Repr

/-- The path of an operation as it stands in the document. -/
def Operation.documentPath (o : Operation) : String := o.pathKey.label

namespace Document

/-- The paths of a document. A document without paths has none; paths that are no object cannot be
gone through. -/
def paths (document : Node) : Except Failure Fields :=
  match document with
  | .object fields =>
    match Fields.get? fields "paths" with
    | none => .ok []
    | some (.object items) => .ok items
    | some _ => .error .notAnObject
  | _ => .error .notAnObject

/-- Is the key of a path item an HTTP method, in whatever case? -/
def isMethodKey (key : Key) : Bool := httpMethods.contains (Naming.lowerCase key.label)

/-- The tag of a raw operation: its first tag as an identifier. -/
def tagOf (raw : Fields) : String :=
  match Fields.get? raw "tags" with
  | some (.list (.text tag :: _)) => Naming.tagName tag
  | _ => Naming.defaultTag

/-- The text of a member that is a text and not empty. -/
def textMember (raw : Fields) (name : String) : Option String :=
  (Fields.get? raw name).bind Node.nonEmptyText?

/-- The path of an operation without the first base path that it starts with. Only a text can be
stripped. -/
def strippedPath (basePaths : List String) (key : Key) : Except Failure String :=
  if basePaths.isEmpty || key.isText then .ok (BasePath.strip key.label basePaths)
  else .error .notAText

/-- The operation for a path, a method key and the raw operation there. -/
def operation (basePaths : List String) (pathKey methodKey : Key) (raw : Fields) :
    Except Failure Operation := do
  let path ← strippedPath basePaths pathKey
  return {
    path, pathKey
    method := Naming.upperCase methodKey.label
    tag := tagOf raw
    operationId := textMember raw "operationId"
    summary := textMember raw "summary"
    description := textMember raw "description" }

/-- The members of a path item that are operations: a method key with an object. -/
def rawOperations (pathItem : Node) : List (Key × Fields) :=
  pathItem.fields.filterMap fun m =>
    if isMethodKey m.1 then m.2.object?.map (m.1, ·) else none

/-- All operations of a document, in document order. -/
def operations (document : Node) (basePaths : List String) : Except Failure (List Operation) := do
  let places := (← paths document).flatMap fun item =>
    (rawOperations item.2).map fun raw => (item.1, raw)
  places.mapM fun p => operation basePaths p.1 p.2.1 p.2.2

end Document

/-- The operations by tag. -/
abbrev Catalog := List (String × List Operation)

namespace Catalog

/-- Adds an operation at the end of its tag; a new tag comes last. -/
def add : Catalog → Operation → Catalog
  | [], o => [(o.tag, [o])]
  | (tag, os) :: rest, o =>
    if tag = o.tag then (tag, os ++ [o]) :: rest else (tag, os) :: add rest o

/-- The operations of a list grouped by tag. -/
def ofOperations (operations : List Operation) : Catalog := operations.foldl add []

/-- The operations of a document grouped by tag, with base paths stripped. -/
def ofDocument (document : Node) (basePaths : List String) : Except Failure Catalog :=
  (Document.operations document (BasePath.ofList basePaths)).map ofOperations

/-- All operations, tag by tag. -/
def operations (catalog : Catalog) : List Operation := catalog.flatMap (·.2)

/-- The number of operations. -/
def count (catalog : Catalog) : Nat := catalog.foldl (fun n t => n + t.2.length) 0

end Catalog

namespace Operation

/-- The members of the path item of an operation. -/
def pathItem (document : Node) (o : Operation) : Except Failure Fields := do
  return ((Fields.value? (← Document.paths document) o.pathKey).map Node.fields).getD []

/-- The members of an operation in the document: those of the first object in its path item whose
key is its method, in whatever case. -/
def raw (document : Node) (o : Operation) : Except Failure Fields := do
  let item ← o.pathItem document
  return ((List.find? (fun m : Key × Node =>
    Naming.upperCase m.1.label == o.method && m.2.isObject) item).map fun m => m.2.fields).getD []

/-- The name of the resource that an operation works on. -/
def resource (o : Operation) : String :=
  match o.operationId with
  | some id => Naming.resourceName id
  | none => Naming.pascalCase o.tag

end Operation

end ClientGen
