import ClientGen.Naming.Plural

/-!
# Names of generated things

Every name in generated code is derived from what the author of a document wrote.

* `cleanOperationId`: an operation id without framework words and without its resource in front.
* `resourceName`: the resource that an operation id speaks of.
* `interfaceName`, `hookName`, `tagName`: names of interfaces, hooks and tags.
* `isIdentifier`: can a property key stand without quotes?
-/

namespace ClientGen.Naming

/-- Words that frameworks put into operation ids. They say nothing about the operation. -/
def noiseWords : List String := ["Controller", "Service", "Handler", "Manager", "Processor"]

/-- Words that name the action of an operation and not its resource. -/
def actionVerbs : List String :=
  ["get", "post", "put", "delete", "patch", "create", "update", "remove", "find", "fetch",
    "search", "list", "add", "set", "modify", "change", "retrieve", "query", "load"]

/-- A name without any of the framework words. -/
def withoutNoise (name : String) : String :=
  noiseWords.foldl
    (fun s noise => String.ofList (Text.replace noise.toList [] s.toList)) name

/-- The words of an operation id without the first one, if that one is named again later in its
singular or plural form. -/
def withoutLeadingResource : List String → List String
  | [] => []
  | first :: rest =>
    let leading := singular (lowerCase first)
    if rest.any fun w => singular (lowerCase w) == leading then rest else first :: rest

/-- An operation id without framework words and without a resource that is named again:
`categoryControllerGetCategoryById` becomes `getCategoryById`. -/
def cleanOperationId (operationId : String) : String :=
  camelCase (" ".intercalate (withoutLeadingResource (splitWords (withoutNoise operationId))))

/-- A word as a resource: singular, with a capital first letter. -/
def resourceWord (word : String) : String :=
  let form := singular (capitalizeName word)
  if form.isEmpty then capitalizeName word else form

/-- The resource of an operation id: its first word that names no action, in the singular. An id
of actions only gives its first word, an id without words `Unknown`. -/
def resourceName (operationId : String) : String :=
  let ws := splitWords (cleanOperationId operationId)
  match ws.find? fun w => !actionVerbs.contains (lowerCase w) with
  | some w => resourceWord w
  | none => match ws with
    | w :: _ => capitalizeName w
    | [] => "Unknown"

/-- The interface for a base name: `IWidgetResponse` for `widget` and `Response`. -/
def interfaceName (base suffix : String) : String := "I" ++ pascalCase base ++ suffix

/-- The name of the group for operations that have no tag. -/
def defaultTag : String := "default"

/-- A tag as an identifier and as the name of a file. -/
def tagName (tag : String) : String :=
  let name := camelCase tag
  if name.isEmpty then defaultTag else name

/-- The hook for a method: `useGetCategoryById` for `getCategoryById`. -/
def hookName (method : String) : String := "use" ++ pascalCase method

/-- A letter of ASCII, an underscore or a dollar sign. -/
def isIdentifierStart (c : Char) : Bool :=
  Text.isAsciiUpper c || Text.isAsciiLower c || c == '_' || c == '$'

/-- A character that can start an identifier, or a digit of ASCII. -/
def isIdentifierPart (c : Char) : Bool := isIdentifierStart c || Text.isAsciiDigit c

/-- Are the characters those of an identifier? -/
def isIdentifierText : List Char → Bool
  | [] => false
  | c :: cs => isIdentifierStart c && cs.all isIdentifierPart

/-- Can the name stand without quotes? A single line feed at its very end is not looked at. -/
def isIdentifier (name : String) : Bool :=
  let cs := name.toList
  isIdentifierText (if cs.getLast? = some '\n' then cs.dropLast else cs)

end ClientGen.Naming
