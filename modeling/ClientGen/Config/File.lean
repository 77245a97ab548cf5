import ClientGen.Document.Loading

/-!
# Configuration files

* `Config.fileNames`: the files that are looked for when none is named.
* `Config.parseFile`: the settings in the text of a file.
* `Config.load`: the settings of the file that is named or found.
-/

namespace ClientGen.Config

/-- The files that are looked for, the first one that exists counting. -/
def fileNames : List String :=
  ["swagger-codegen.config.json", "swagger-codegen.config.yaml", "swagger-codegen.config.yml"]

/-- The node in the text of a file. The ending of the name tells the format. -/
def parseNode (path : Path) (text : String) : Except Failure Node :=
  if path.suffix = ".json" then
    (Json.parse text).mapError (.ofJson fun e => .config (.invalidJson path.text e))
  else if path.suffix = ".yaml" || path.suffix = ".yml" then
    (Yaml.parse text).mapError (.ofYaml (.config (.invalidYaml path.text)))
  else .error (.config (.unsupported path.suffix))

/-- The settings in the text of a file. A file without content has none. -/
def parseFile (path : Path) (text : String) : Except Failure Fields := do
  match ← parseNode path text with
  | .null => return []
  | .object fields => return fields
  | _ => .error (.config (.notAMapping path.text))

/-- The settings of the file at a path. -/
def loadFile (t : FileTree) (path : Path) : Except Failure Fields :=
  if t.isTooLong path then .error .nameTooLong
  else match t.read? path with
    | some text => parseFile path text
    | none => .error (.config (.notFound path.text))

/-- The settings of the file that is named, or of the first one that is found in the working
directory. -/
def load (t : FileTree) (name : Option String) : Except Failure (Option Fields) :=
  let directory : Path := ⟨.root, t.workingDirectory⟩
  match name with
  | some name => (loadFile t (directory.child name)).map some
  | none =>
    let found := (fileNames.map directory.child).find? t.isFile
    match found with
    | some path => (loadFile t path).map some
    | none => .ok none

end ClientGen.Config
