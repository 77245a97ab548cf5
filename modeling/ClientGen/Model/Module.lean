import ClientGen.Catalog
import ClientGen.Schema.Declaration
import ClientGen.Text.Letter

/-!
# Model modules

The declarations of a pass, grouped by the module that holds them, and the text of a module.

* `OperationTypes`: the types that the code of an operation refers to.
* `ModelSet`: the result of a pass.
* `ModelSet.imports`: what a module needs from other modules.
* `ModelSet.render`: the text of a module.
-/

namespace ClientGen

/-- The types that the code of an operation refers to. -/
structure OperationTypes where
  /-- The resource that the declarations are named after. -/
  resource : String
  /-- The module that holds the declarations. -/
  module : String
  /-- The type of what is sent. -/
  request : Option String := none
  /-- The type of what comes back. -/
  response : Option String := none
  /-- The type of the query parameters. -/
  params : Option String := none
deriving DecidableEq, Repr

/-- Everything that a pass over the operations produced. -/
structure ModelSet where
  /-- The declarations by module, in the order of production. -/
  declarations : List (String × List Declaration) := []
  /-- The module of each declared name. -/
  owners : List (String × String) := []
  /-- The types of each operation. -/
  types : List (Operation × OperationTypes) := []

/-- Sets the value under a key of an association list. A key that is already there keeps its
position. -/
def assign {α β : Type} [DecidableEq α] (a : α) (b : β) : List (α × β) → List (α × β)
  | [] => [(a, b)]
  | (a', b') :: rest => if a' = a then (a', b) :: rest else (a', b') :: assign a b rest

/-- Changes the value under a key of an association list, starting from a given one if the key is
new. -/
def alter {α β : Type} [DecidableEq α] (a : α) (start : β) (f : β → β) :
    List (α × β) → List (α × β)
  | [] => [(a, f start)]
  | (a', b) :: rest => if a' = a then (a', f b) :: rest else (a', b) :: alter a start f rest

/-- The interface name at the start of a text: a capital I, a capital letter, and letters, digits
and underscores of ASCII. It has to end with its word, and no colon may follow that would make it
the key of a property. -/
def interfaceNameAt? (cs : List Char) : Option (List Char) :=
  match cs with
  | 'I' :: c :: rest =>
    if Text.isAsciiUpper c then
      let tail := rest.takeWhile fun d => Text.isAsciiAlphanumeric d || d == '_'
      match rest.drop tail.length with
      | ':' :: _ => none
      | '?' :: ':' :: _ => none
      | [] => some ('I' :: c :: tail)
      | d :: _ => if Text.isWordChar d then none else some ('I' :: c :: tail)
    else none
  | _ => none

/-- The interface names that start a word of a text, in order. The first argument says whether the
character before the text belongs to a word. -/
def interfaceNamesFrom : Bool → List Char → List String
  | _, [] => []
  | inWord, c :: cs =>
    let later := interfaceNamesFrom (Text.isWordChar c) cs
    if inWord then later
    else match interfaceNameAt? (c :: cs) with
      | some name => String.ofList name :: later
      | none => later

/-- The interface names that a text uses, in order and with repetitions. -/
def interfaceNames (text : String) : List String := interfaceNamesFrom false text.toList

namespace ModelSet

/-- Adds one declaration to a module. -/
def addDeclaration (module : String) (models : ModelSet) (d : Declaration) : ModelSet :=
  { models with
    declarations := alter module [] (· ++ [d]) models.declarations
    owners := assign d.name module models.owners }

/-- Adds some declarations to a module. -/
def add (models : ModelSet) (module : String) (ds : List Declaration) : ModelSet :=
  ds.foldl (addDeclaration module) models

/-- The number of declared names. -/
def declarationCount (models : ModelSet) : Nat := models.owners.length

/-- The names of the modules. -/
def modules (models : ModelSet) : List String := models.declarations.map (·.1)

/-- The declarations of a module. -/
def declarationsOf (models : ModelSet) (module : String) : List Declaration :=
  (models.declarations.lookup module).getD []

/-- The module that a used name is to be imported from; none for names that the module declares
itself and for names that no module declares. -/
def importOwner? (models : ModelSet) (module name : String) : Option String :=
  match models.owners.lookup name with
  | some owner =>
    if owner = module || (models.declarationsOf module).any (·.name == name) then none
    else some owner
  | none => none

/-- The names that a module uses and other modules declare, by module in the order of first use. -/
def imports (models : ModelSet) (module : String) : List (String × List String) :=
  ((models.declarationsOf module).flatMap fun d => interfaceNames d.content).foldl
    (fun found name => match models.importOwner? module name with
      | some owner =>
        alter owner [] (fun names => if names.contains name then names else names ++ [name]) found
      | none => found) []

/-- The line that imports some types. -/
def importLine (names : List String) (source : String) : String :=
  "import type \x7b " ++ ", ".intercalate names ++ " \x7d from '" ++ source ++ "';"

/-- The text of a module: the import lines, then the declarations, with blank lines between. -/
def render (models : ModelSet) (module : String) : String :=
  let body := "\n".intercalate ((models.declarationsOf module).map Declaration.content)
  match models.imports module with
  | [] => body
  | imports =>
    "\n".intercalate (imports.map fun i => importLine i.2 ("./" ++ i.1)) ++ "\n\n" ++ body

end ModelSet

end ClientGen
