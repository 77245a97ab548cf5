import ClientGen.Config.Settings
import ClientGen.Endpoint.Request

/-!
# Endpoint groups

The endpoints of one tag, and where their hooks find what they import.

* `EndpointGroup`, `EndpointGroup.ofCatalog`: the groups of a catalog.
* `EndpointGroup.modelImports`: the types that some endpoints use, by model module.
* `EndpointGroup.endpointsImport`, `EndpointGroup.clientImport`: specifiers of other modules.
-/

namespace ClientGen

/-- The endpoints of one tag. -/
structure EndpointGroup where
  /-- The tag. -/
  tag : String
  /-- The endpoints, their names distinct. -/
  endpoints : List Endpoint
deriving Repr

namespace EndpointGroup

/-- The constant that holds the endpoints of a tag. -/
def constantOf (tag : String) : String := Naming.camelCase tag ++ "Endpoints"

/-- The groups of a catalog, in its order. -/
def ofCatalog (models : ModelSet) (catalog : Catalog) : Except Failure (List EndpointGroup) :=
  catalog.mapM fun (tag, os) => do return { tag, endpoints := ← Endpoint.ofOperations models os }

/-- The constant that holds the endpoints. -/
def constant (g : EndpointGroup) : String := constantOf g.tag

/-- The tag with a capital first letter. -/
def pascalTag (g : EndpointGroup) : String := Naming.pascalCase g.tag

/-- The hook for all endpoints together. -/
def hookName (g : EndpointGroup) : String := "use" ++ g.pascalTag

/-- The directory of the hooks. -/
def hooksPath (g : EndpointGroup) (s : Settings) : Path := s.hooksPath.child g.tag

/-- The specifier by which the hooks import the endpoints. -/
def endpointsImport (g : EndpointGroup) (s : Settings) (workingDirectory : List String) : String :=
  Path.importSpecifier workingDirectory (g.hooksPath s) (s.endpointsPath.child g.tag)

/-- The specifier by which the hooks import the HTTP client. -/
def clientImport (g : EndpointGroup) (s : Settings) (workingDirectory : List String) : String :=
  Path.importSpecifier workingDirectory (g.hooksPath s) (s.axiosPath.child "axiosInstance")

/-- The names among some that the models declare, by module, each once and in the order of first
use. -/
def namesByModule (models : ModelSet) (names : List String) : List (String × List String) :=
  names.foldl (fun found name => match models.owners.lookup name with
    | some module =>
      alter module [] (fun known => if known.contains name then known else known ++ [name]) found
    | none => found) []

/-- The types that some endpoints of the group use: the specifiers of the modules that declare them,
with their names. -/
def modelImports (g : EndpointGroup) (s : Settings) (workingDirectory : List String)
    (models : ModelSet) (endpoints : List Endpoint) : List (String × List String) :=
  (namesByModule models (endpoints.flatMap Endpoint.typeNames)).map fun (module, names) =>
    (Path.importSpecifier workingDirectory (g.hooksPath s) (s.modelsPath.child module), names)

end EndpointGroup

end ClientGen
