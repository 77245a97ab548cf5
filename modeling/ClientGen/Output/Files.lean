import ClientGen.Output.Client
import ClientGen.Output.Endpoints
import ClientGen.Output.Hook

/-!
# The files of a run

* `Output.modelFiles`, `Output.endpointFiles`, `Output.clientFiles`, `Output.hookFiles`,
  `Output.indexFiles`: the files of each kind.
* `Output.groupFiles`: all files but those of the models, in the order of writing.
-/

namespace ClientGen.Output

/-- The files of the models. An existing one is added to. -/
def modelFiles (s : Settings) (models : ModelSet) : List GeneratedFile :=
  models.modules.map fun module =>
    { name := s.models ++ "/" ++ module ++ ".ts", text := models.render module, mode := .merge }

/-- The files of the endpoints. -/
def endpointFiles (s : Settings) (groups : List EndpointGroup) : List GeneratedFile :=
  groups.map fun g => { name := s.endpoints ++ "/" ++ g.tag ++ ".ts", text := EndpointFile.text g }

/-- The files of the HTTP client. -/
def clientFiles (s : Settings) : List GeneratedFile :=
  [{ name := s.axios.directory ++ "/axiosInstance.ts", text := ClientFile.instanceText s.axios },
    { name := s.axios.directory ++ "/types.ts", text := ClientFile.typesText }]

/-- The hooks of a group and the texts of their files. -/
def hookTexts (s : Settings) (workingDirectory : List String) (models : ModelSet)
    (g : EndpointGroup) : List (Hook × String) :=
  match s.hooks.pattern with
  | .combined =>
    let h := Hook.combined g s workingDirectory models
    [(h, h.combinedText s)]
  | .separate => g.endpoints.map fun e =>
    let h := Hook.single g s workingDirectory models e
    (h, h.singleText s)

/-- The files of the hooks. -/
def hookFiles (s : Settings) (workingDirectory : List String) (models : ModelSet)
    (groups : List EndpointGroup) : List GeneratedFile :=
  groups.flatMap fun g => (hookTexts s workingDirectory models g).map fun (h, text) =>
    { name := s.hooks.directory ++ "/" ++ g.tag ++ "/" ++ h.name ++ ".ts", text }

/-- The text of the file that gathers all models. -/
def modelIndexText (models : ModelSet) : String :=
  textOfLines (models.modules.map fun module => "export * from './" ++ module ++ "';")

/-- The files that gather the models and the endpoints. -/
def indexFiles (s : Settings) (models : ModelSet) (groups : List EndpointGroup) :
    List GeneratedFile :=
  [{ name := s.models ++ "/index.ts", text := modelIndexText models },
    { name := s.endpoints ++ "/index.ts", text := EndpointFile.indexText groups }]

/-- All files but those of the models, in the order of writing. -/
def groupFiles (s : Settings) (workingDirectory : List String) (models : ModelSet)
    (groups : List EndpointGroup) : List GeneratedFile :=
  endpointFiles s groups
    ++ (if s.axios.generate then clientFiles s else [])
    ++ (if s.hooks.generate then hookFiles s workingDirectory models groups else [])
    ++ (if s.index then indexFiles s models groups else [])

end ClientGen.Output
