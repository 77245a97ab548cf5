import ClientGen.Endpoint.Basic

/-!
# Requests

The code that sends the request of an endpoint, in two flavours.

* `Carried`: what a request carries besides its address.
* `AxiosCall`: a call of the HTTP client module.
* `FetchCall`: statements that use the `fetch` of the platform.
* `AxiosCall.carries`, `FetchCall.carries`: what the two of them send.
-/

namespace ClientGen

/-- What a request can carry besides its address. -/
inductive Carried where
  /-- What is sent in the body. -/
  | payload
  /-- The query parameters. -/
  | params
  /-- Request headers added by the caller. -/
  | headers
deriving DecidableEq, Repr

/-- The variable that holds what is carried. -/
def Carried.name : Carried → String
  | .payload => "payload"
  | .params => "params"
  | .headers => "headers"

/-- An argument after the address in a call of the HTTP client. -/
inductive AxiosArgument where
  /-- What is sent in the body. -/
  | payload
  /-- A placeholder where nothing is sent and options follow. -/
  | undefined
  /-- An object of options. -/
  | options (carried : List Carried)
deriving DecidableEq, Repr

/-- A call of the HTTP client. -/
inductive AxiosCall where
  /-- A call of the function for one HTTP method. -/
  | direct (function : String) (types : List String) (path : String)
      (arguments : List AxiosArgument)
  /-- A call of the function for all HTTP methods. -/
  | general (response path method : String) (payload : Bool) (options : List Carried)
deriving DecidableEq, Repr

namespace AxiosArgument

/-- The argument as code. -/
def text : AxiosArgument → String
  | .payload => "payload"
  | .undefined => "undefined"
  | .options carried => "\x7b " ++ ", ".intercalate (carried.map Carried.name) ++ " \x7d"

/-- What an argument carries. -/
def carries : AxiosArgument → List Carried
  | .payload => [.payload]
  | .undefined => []
  | .options carried => carried

end AxiosArgument

namespace AxiosCall

/-- The HTTP methods for which the client has a function. -/
def functions : List String := ["get", "delete", "head", "options", "post", "put", "patch"]

/-- Those of them whose function takes a body. -/
def bodyFunctions : List String := ["post", "put", "patch"]

/-- What the options of a call hold. -/
def optionsOf (e : Endpoint) (headers : Bool) : List Carried :=
  (if e.params.isSome then [.params] else []) ++ (if headers then [.headers] else [])

/-- The argument for the body: what is sent, or a placeholder before options. -/
def bodyArgument (e : Endpoint) (options : List Carried) : List AxiosArgument :=
  if e.request.isSome then [.payload] else if options.isEmpty then [] else [.undefined]

/-- The call that sends the request of an endpoint. -/
def ofEndpoint (e : Endpoint) (constant : String) (headers : Bool) : AxiosCall :=
  let options := optionsOf e headers
  let optionArgument := if options.isEmpty then [] else [.options options]
  if !functions.contains e.methodName then
    .general e.response (e.pathCall constant) e.method e.request.isSome options
  else if bodyFunctions.contains e.methodName then
    .direct e.methodName ([e.response, e.response] ++ e.request.toList) (e.pathCall constant)
      (bodyArgument e options ++ optionArgument)
  else
    .direct e.methodName [e.response, e.response] (e.pathCall constant) optionArgument

/-- The call as code. -/
def text : AxiosCall → String
  | .direct function types path arguments =>
    "axiosInstance." ++ function ++ "<" ++ ", ".intercalate types ++ ">("
      ++ ", ".intercalate (path :: arguments.map AxiosArgument.text) ++ ")"
  | .general response path method payload options =>
    let fields := ["url: " ++ path, "method: '" ++ method ++ "'"]
      ++ (if payload then ["data: payload"] else []) ++ options.map Carried.name
    "axiosInstance.request<" ++ response ++ ", " ++ response ++ ">(\x7b " ++ ", ".intercalate fields
      ++ " \x7d)"

/-- The expression for the path that is called. -/
def path : AxiosCall → String
  | .direct _ _ path _ => path
  | .general _ path _ _ _ => path

/-- What the call sends. -/
def carries : AxiosCall → List Carried
  | .direct _ _ _ arguments => arguments.flatMap AxiosArgument.carries
  | .general _ _ _ payload options => (if payload then [.payload] else []) ++ options

/-- The statements of the call. -/
def lines (c : AxiosCall) : List String := ["const response = await " ++ c.text ++ ";"]

end AxiosCall

/-- Statements that send a request with the `fetch` of the platform. -/
structure FetchCall where
  /-- The expression for the base address. -/
  baseUrl : String
  /-- The expression for the path. -/
  path : String
  /-- The HTTP method in capital letters. -/
  method : String
  /-- The type of what comes back. -/
  response : String
  /-- Query parameters are added to the address. -/
  query : Bool
  /-- Headers of the caller are added. -/
  headers : Bool
  /-- A body is sent. -/
  body : Bool
deriving DecidableEq, Repr

namespace FetchCall

/-- The statements that send the request of an endpoint. -/
def ofEndpoint (e : Endpoint) (constant baseUrl : String) (headers : Bool) : FetchCall where
  baseUrl
  path := e.pathCall constant
  method := e.method
  response := e.response
  query := e.params.isSome
  headers
  body := e.request.isSome

/-- The expression for the whole address. -/
def url (c : FetchCall) : String :=
  "`$\x7b" ++ c.baseUrl ++ " || ''\x7d$\x7b" ++ c.path ++ "\x7d`"

/-- The statements that add query parameters to the address. -/
def queryLines : List String := [
  "",
  "if (params) \x7b",
  "  const queryParams = new URLSearchParams();",
  "  Object.entries(params).forEach(([key, value]) => \x7b",
  "    if (value !== undefined && value !== null) \x7b",
  "      queryParams.append(key, String(value));",
  "    \x7d",
  "  \x7d);",
  "  const queryString = queryParams.toString();",
  "  if (queryString) \x7b",
  "    url += `?$\x7bqueryString\x7d`;",
  "  \x7d",
  "\x7d"]

/-- The statement with the options of the request. -/
def optionLines (c : FetchCall) : List String :=
  ["",
    "const fetchOptions: RequestInit = \x7b",
    "  method: '" ++ c.method ++ "',",
    "  headers: \x7b",
    "    'Content-Type': 'application/json',",
    "    'Accept': 'application/json',"]
  ++ (if c.headers then ["    ...headers,"] else [])
  ++ ["  \x7d,"]
  ++ (if c.body then ["  body: JSON.stringify(payload),"] else [])
  ++ ["\x7d;"]

/-- The statements that send the request and read the answer. -/
def answerLines (c : FetchCall) : List String := [
  "",
  "const fetchResponse = await fetch(url, fetchOptions);",
  "if (!fetchResponse.ok) \x7b",
  "  throw new Error(`HTTP error! status: $\x7bfetchResponse.status\x7d`);",
  "\x7d",
  "",
  "const response: " ++ c.response ++ " = await fetchResponse.json();"]

/-- The statements of the call. -/
def lines (c : FetchCall) : List String :=
  ["let url = " ++ c.url ++ ";"] ++ (if c.query then queryLines else []) ++ c.optionLines
    ++ c.answerLines

/-- What the statements send. -/
def carries (c : FetchCall) : List Carried :=
  (if c.body then [.payload] else []) ++ (if c.query then [.params] else [])
    ++ (if c.headers then [.headers] else [])

end FetchCall

end ClientGen
