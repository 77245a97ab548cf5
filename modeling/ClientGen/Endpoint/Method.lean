import ClientGen.Catalog

/-!
# Names of endpoint methods

* `Operation.methodName`: the name of an operation in generated code.
* `Endpoint.distinctNames`: the names of the operations of one tag, made distinct.
-/

namespace ClientGen.Operation

/-- What a path segment adds to a method name; a parameter is introduced by a word. -/
def segmentWords (segment : String) : String :=
  match segment.toList with
  | '{' :: rest =>
    if rest.getLast? = some '}' then "by " ++ String.ofList rest.dropLast else segment
  | _ => segment

/-- The segments of a path that say something about an operation. -/
def tellingSegments (path : String) : List String :=
  ((Text.splitOn '/' path.toList).map String.ofList).filter fun s => s ≠ "" && s ≠ "api"

/-- The method name that follows from the HTTP method and the path. -/
def nameFromPath (o : Operation) : String :=
  Naming.camelCase
    (" ".intercalate (Naming.lowerCase o.method :: (tellingSegments o.path).map segmentWords))

/-- The method name of an operation: its cleaned id, else what follows from method and path. -/
def methodName (o : Operation) : String :=
  match o.operationId.map Naming.cleanOperationId with
  | some name => if name.isEmpty then nameFromPath o else name
  | none => nameFromPath o

end ClientGen.Operation

namespace ClientGen.Endpoint

/-- The first name in the sequence `base`, `base2`, `base3`, … that is not taken. Among one more
names than are taken there is one. -/
def freeName (taken : List String) (base : String) : String :=
  let candidates :=
    base :: (List.range (taken.length + 1)).map fun i => base ++ toString (i + 2)
  (candidates.find? fun name => !taken.contains name).getD base

/-- The name that an entry ends up with, given the final names of the entries before it: its own
name if that is free, else the first free name that continues it with the HTTP method. -/
def finalName (taken : List String) (name httpMethod : String) : String :=
  if taken.contains name then freeName taken (name ++ Naming.capitalizeWord httpMethod) else name

/-- The final names of some entries, each a method name and an HTTP method, in order. -/
def distinctNamesFrom (taken : List String) : List (String × String) → List String
  | [] => []
  | (name, httpMethod) :: rest =>
    let final := finalName taken name httpMethod
    final :: distinctNamesFrom (taken ++ [final]) rest

/-- The final names of all entries of one tag. -/
def distinctNames (entries : List (String × String)) : List String := distinctNamesFrom [] entries

end ClientGen.Endpoint
