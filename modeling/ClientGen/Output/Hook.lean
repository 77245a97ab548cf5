import ClientGen.Endpoint.Group
import ClientGen.Output.File

/-!
# Hook files

A hook keeps the state of requests and gives functions that send them. A file holds the hook of one
endpoint, or one hook for all endpoints of a tag.

* `HookNames`: the names that a hook declares for an endpoint.
* `Hook`: what a hook file is made of.
* `Hook.single`, `Hook.combined`: the two kinds of hooks.
* `Hook.text`: the text of a file.
-/

namespace ClientGen

/-- The names that a hook declares for an endpoint. -/
structure HookNames where
  /-- The answer. -/
  data : String
  /-- Sets the answer. -/
  setData : String
  /-- Is a request under way? -/
  loading : String
  /-- Sets whether a request is under way. -/
  setLoading : String
  /-- What went wrong. -/
  error : String
  /-- Sets what went wrong. -/
  setError : String
  /-- Sends the request. -/
  call : String
deriving DecidableEq, Repr

namespace HookNames

/-- The names in a hook for a single endpoint. -/
def single (e : Endpoint) : HookNames where
  data := "data"
  setData := "setData"
  loading := "isLoading"
  setLoading := "setIsLoading"
  error := "error"
  setError := "setError"
  call := e.name

/-- The names in a hook for several endpoints. -/
def combined (e : Endpoint) : HookNames where
  data := e.name ++ "Data"
  setData := "set" ++ e.pascalName ++ "Data"
  loading := e.name ++ "Loading"
  setLoading := "set" ++ e.pascalName ++ "Loading"
  error := e.name ++ "Error"
  setError := "set" ++ e.pascalName ++ "Error"
  call := e.name

/-- The names that hold state, with what sets them and the state at the start. -/
def states (n : HookNames) (response : String) : List (String × String × String × String) :=
  [(n.data, n.setData, response ++ " | null", "null"),
    (n.loading, n.setLoading, "boolean", "false"),
    (n.error, n.setError, "string | null", "null")]

/-- All names, in the order of their declarations. -/
def declared (n : HookNames) : List String :=
  [n.data, n.setData, n.loading, n.setLoading, n.error, n.setError, n.call]

end HookNames

/-- An endpoint in a hook. -/
structure HookPart where
  /-- The endpoint. -/
  endpoint : Endpoint
  /-- The names that the hook declares for it. -/
  names : HookNames
deriving Repr

/-- What a hook file is made of. -/
structure Hook where
  /-- The name of the hook. -/
  name : String
  /-- The name of the type of what the hook gives. -/
  typeName : String
  /-- The endpoints in it. -/
  parts : List HookPart
  /-- The specifier of the endpoints and the constant that holds them. -/
  endpointsImport : String × String
  /-- The specifier of the HTTP client. -/
  clientImport : String
  /-- The types that the code uses, by the specifiers of their modules. -/
  modelImports : List (String × List String)
deriving Repr

namespace Hook

/-- The type of what sends the request of an endpoint. -/
def promise (e : Endpoint) : String := "Promise<" ++ e.response ++ " | null>"

/-- The parameters of what sends the request of an endpoint. -/
def parameters (s : Settings) (e : Endpoint) : String := signature (e.arguments s.hooks.headers)

/-- The hook for one endpoint of a group. -/
def single (g : EndpointGroup) (s : Settings) (workingDirectory : List String) (models : ModelSet)
    (e : Endpoint) : Hook where
  name := e.hookName
  typeName := e.hookTypeName
  parts := [⟨e, .single e⟩]
  endpointsImport := (g.endpointsImport s workingDirectory, g.constant)
  clientImport := g.clientImport s workingDirectory
  modelImports := g.modelImports s workingDirectory models [e]

/-- The hook for all endpoints of a group. -/
def combined (g : EndpointGroup) (s : Settings) (workingDirectory : List String)
    (models : ModelSet) : Hook where
  name := g.hookName
  typeName := g.hookName ++ "Return"
  parts := g.endpoints.map fun e => ⟨e, .combined e⟩
  endpointsImport := (g.endpointsImport s workingDirectory, g.constant)
  clientImport := g.clientImport s workingDirectory
  modelImports := g.modelImports s workingDirectory models g.endpoints

/-- The names that the body of the hook declares. -/
def declared (h : Hook) : List String := h.parts.flatMap fun p => p.names.declared

/-- The import lines. -/
def importLines (h : Hook) (s : Settings) : List String :=
  ["import \x7b useState \x7d from 'react';"]
  ++ (if s.hooks.useFetch then []
    else ["import \x7b axiosInstance \x7d from '" ++ h.clientImport ++ "';"])
  ++ ["import \x7b " ++ h.endpointsImport.2 ++ " \x7d from '" ++ h.endpointsImport.1 ++ "';"]
  ++ h.modelImports.map fun i => ModelSet.importLine i.2 i.1

/-- The members of the type of what the hook gives. -/
def typeLines (s : Settings) (p : HookPart) : List String := [
  "  " ++ p.names.data ++ ": " ++ p.endpoint.response ++ " | null;",
  "  " ++ p.names.loading ++ ": boolean;",
  "  " ++ p.names.error ++ ": string | null;",
  "  " ++ p.names.call ++ ": (" ++ parameters s p.endpoint ++ ") => " ++ promise p.endpoint ++ ";"]

/-- The declarations of the state for an endpoint. -/
def stateLines (p : HookPart) : List String :=
  ((p.names.states p.endpoint.response).map fun (state, setter, type, start) =>
    "  const [" ++ state ++ ", " ++ setter ++ "] = useState<" ++ type ++ ">(" ++ start ++ ");")
  ++ [""]

/-- The statements that send the request of an endpoint. -/
def requestLines (h : Hook) (s : Settings) (e : Endpoint) : List String :=
  if s.hooks.useFetch then
    (FetchCall.ofEndpoint e h.endpointsImport.2 s.axios.baseUrl s.hooks.headers).lines
  else (AxiosCall.ofEndpoint e h.endpointsImport.2 s.hooks.headers).lines

/-- The same as a text inside the body of a function. -/
def requestText (h : Hook) (s : Settings) (e : Endpoint) : String :=
  let margin := "      "
  margin ++ String.ofList
    (Text.indentRest margin.toList ("\n".intercalate (h.requestLines s e)).toList)

/-- The function that sends the request of an endpoint. A failure is logged under a label. -/
def callLines (h : Hook) (s : Settings) (label : String) (p : HookPart) : List String :=
  let n := p.names
  ["  const " ++ n.call ++ " = async (" ++ parameters s p.endpoint ++ "): " ++ promise p.endpoint
      ++ " => \x7b",
    "    " ++ n.setLoading ++ "(true);",
    "    " ++ n.setError ++ "(null);",
    "",
    "    try \x7b",
    h.requestText s p.endpoint,
    "",
    "      " ++ n.setData ++ "(response);",
    "      return response;",
    "    \x7d catch (err: any) \x7b",
    "      const errorMessage = err.message || 'An error occurred';",
    "      " ++ n.setError ++ "(errorMessage);",
    "      console.error('" ++ label ++ " error:', err);",
    "      return null;",
    "    \x7d finally \x7b",
    "      " ++ n.setLoading ++ "(false);",
    "    \x7d",
    "  \x7d;",
    ""]

/-- The comment that describes an endpoint, if there is a description. -/
def commentLines (indent : String) (e : Endpoint) : List String :=
  if e.description.isEmpty then [] else [indent ++ "/** " ++ e.description ++ " */"]

/-- The first lines of a file: the imports and the type of what the hook gives. -/
def headLines (h : Hook) (s : Settings) : List String :=
  h.importLines s ++ ["", "type " ++ h.typeName ++ " = \x7b"] ++ h.parts.flatMap (typeLines s)
    ++ ["\x7d;", ""]

/-- The line that opens the function of the hook. -/
def openingLine (h : Hook) : String :=
  "export const " ++ h.name ++ " = (): " ++ h.typeName ++ " => \x7b"

/-- The text of a file with the hook of a single endpoint. -/
def singleText (h : Hook) (s : Settings) : String :=
  textOfLines (h.headLines s
    ++ (h.parts.flatMap fun p => commentLines "" p.endpoint)
    ++ [h.openingLine]
    ++ h.parts.flatMap stateLines
    ++ h.parts.flatMap (h.callLines s h.name)
    ++ ["  return \x7b " ++ ", ".intercalate (h.parts.flatMap fun p =>
        [p.names.data, p.names.loading, p.names.error, p.names.call]) ++ " \x7d;",
      "\x7d;"])

/-- The text of a file with a hook for several endpoints. -/
def combinedText (h : Hook) (s : Settings) : String :=
  textOfLines (h.headLines s
    ++ [h.openingLine]
    ++ h.parts.flatMap stateLines
    ++ (h.parts.flatMap fun p =>
      commentLines "  " p.endpoint ++ h.callLines s p.names.call p)
    ++ ["  return \x7b"]
    ++ (h.parts.flatMap fun p =>
      [p.names.data, p.names.loading, p.names.error, p.names.call].map ("    " ++ · ++ ","))
    ++ ["  \x7d;", "\x7d;"])

end Hook

end ClientGen
