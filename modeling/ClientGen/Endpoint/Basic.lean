import ClientGen.Endpoint.Method
import ClientGen.Endpoint.PathTemplate
import ClientGen.Model.Module
import ClientGen.Schema.Declaration

/-!
# Endpoints

An operation with everything that its generated code is made of.

* `Endpoint`, `Endpoint.ofOperation`: one endpoint.
* `Endpoint.ofOperations`: the endpoints of one tag, with distinct names.
* `Endpoint.arguments`: the parameters of the function that sends the request.
* `Endpoint.typeNames`: the declared types that the code refers to.
-/

namespace ClientGen

/-- An operation as it appears in generated code. -/
structure Endpoint where
  /-- The name of the method. -/
  name : String
  /-- The HTTP method in capital letters. -/
  method : String
  /-- The path. -/
  path : String
  /-- The path with insertions for its parameters. -/
  template : PathTemplate
  /-- One line that says what the endpoint does; it may be empty. -/
  description : String
  /-- The type of what is sent, if anything is. -/
  request : Option String
  /-- The type of what comes back. -/
  response : String
  /-- The type of the query parameters, if there are any. -/
  params : Option String
deriving Repr

/-- A parameter of a generated function. -/
structure Argument where
  /-- The name. -/
  name : String
  /-- May callers leave it out? -/
  optional : Bool
  /-- The type. -/
  type : String
deriving DecidableEq, Repr

/-- A parameter as it stands in a signature. -/
def Argument.text (a : Argument) : String := a.name ++ (if a.optional then "?: " else ": ") ++ a.type

/-- Parameters one after another. -/
def signature (arguments : List Argument) : String := ", ".intercalate (arguments.map Argument.text)

namespace Endpoint

/-- The type of an answer of which the document says nothing. -/
def unknownResponse : String := "unknown"

/-- What an operation does, on one line: its summary, or the first sentence of its description. -/
def describe (o : Operation) : String :=
  match o.summary, o.description with
  | some summary, _ => commentText summary
  | none, some description => commentText (String.ofList (Text.before '.' description.toList))
  | none, none => ""

/-- The path of an operation as a text. -/
def pathText (o : Operation) : Except Failure String :=
  if o.pathKey.isText then .ok o.path else .error .notAText

/-- The endpoint for an operation with its types, under a name. -/
def ofOperation (o : Operation) (types : Option OperationTypes) (name : String) : Endpoint where
  name
  method := o.method
  path := o.path
  template := .ofPath o.path
  description := describe o
  request := types.bind (·.request)
  response := (types.bind (·.response)).getD unknownResponse
  params := types.bind (·.params)

/-- The HTTP method in small letters. -/
def methodName (e : Endpoint) : String := Naming.lowerCase e.method

/-- The endpoints for the operations of one tag. Every path has to be a text. -/
def ofOperations (models : ModelSet) (os : List Operation) : Except Failure (List Endpoint) := do
  discard (os.mapM pathText)
  let names := distinctNames (os.map fun o => (Operation.methodName o, Naming.lowerCase o.method))
  return List.zipWith (fun o name => ofOperation o (models.types.lookup o) name) os names

/-- The name of the method with a capital first letter. -/
def pascalName (e : Endpoint) : String := Naming.pascalCase e.name

/-- The name of the hook. -/
def hookName (e : Endpoint) : String := Naming.hookName e.name

/-- The name of the type of what the hook gives. -/
def hookTypeName (e : Endpoint) : String := "TUse" ++ e.pascalName

/-- The parameters for what is inserted into the path. -/
def pathArguments (e : Endpoint) : List Argument :=
  e.template.args.map fun name => ⟨name, false, "string | number"⟩

/-- The parameters of the function that sends the request: those of the path, then what is sent,
the query parameters, and the request headers if callers may add some. -/
def arguments (e : Endpoint) (headers : Bool) : List Argument :=
  e.pathArguments
    ++ (e.request.map fun type => ⟨"payload", false, type⟩).toList
    ++ (e.params.map fun type => ⟨"params", true, type⟩).toList
    ++ (if headers then [⟨"headers", true, "Record<string, string>"⟩] else [])

/-- The expression that gives the path, where `constant` holds the endpoints of the tag. -/
def pathCall (e : Endpoint) (constant : String) : String :=
  constant ++ "." ++ e.name ++ "(" ++ ", ".intercalate e.template.args ++ ")"

/-- A type without the brackets of lists. -/
def elementType (type : String) : String :=
  String.ofList (Text.replace ['[', ']'] [] type.toList)

/-- The names of the declared types that the code refers to. -/
def typeNames (e : Endpoint) : List String :=
  let types := e.request.toList ++ [e.response] ++ e.params.toList
  (types.filter (· ≠ unknownResponse)).map elementType

end Endpoint

end ClientGen
