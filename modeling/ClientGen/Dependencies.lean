import ClientGen.Config.Settings
import ClientGen.File.Tree

/-!
# Missing packages

Generated code imports packages that the project around it has to declare.

* `Dependencies.required`: the packages that the generated code imports.
* `Dependencies.declared`: the packages that a project declares.
* `Dependencies.check`: the missing ones, with the warnings about them.
-/

namespace ClientGen.Dependencies

/-- The members of a package description that declare packages. -/
def sections : List String := ["dependencies", "devDependencies", "peerDependencies"]

/-- The packages that the generated code imports. -/
def required (s : Settings) : List String :=
  (if s.hooks.generate then ["react"] else [])
    ++ (if (s.hooks.generate && !s.hooks.useFetch) || s.axios.generate then ["axios"] else [])

/-- Does a package description declare a package? -/
def declares (description : Fields) (name : String) : Bool :=
  sections.any fun s => ((Fields.get? description s).map Node.fields).any (Fields.has · name)

/-- What is known about a project. -/
inductive Project where
  /-- There is no package description. -/
  | undescribed
  /-- The package description at this path cannot be read. -/
  | unreadable (path : String)
  /-- The package description goes beyond a limit of reading. -/
  | excessive (excess : Excess)
  /-- The package description. -/
  | described (description : Node)

/-- What is known about the project in the working directory. -/
def Project.find (t : FileTree) : Project :=
  let path : Path := ⟨.root, t.workingDirectory ++ ["package.json"]⟩
  match (t.read? path).map Json.parse with
  | none => .undescribed
  | some (.ok description) => .described description
  | some (.error (.malformed _)) => .unreadable path.text
  | some (.error (.beyond excess)) => .excessive excess

/-- What a check found. -/
structure Report where
  /-- The packages that are not declared. -/
  missing : List String := []
  /-- What is said about them. -/
  warnings : List String := []
deriving DecidableEq, Repr

/-- The warnings about missing packages. -/
def warnings : List String → List String
  | [] => []
  | missing =>
    (missing.map fun name =>
      name ++ " is not installed. Generated code that imports it will not work.")
    ++ ["Install with: npm install " ++ " ".intercalate missing]

/-- The required packages that a project does not declare. Without a package description nothing is
missing, nor with one that cannot be read; one that is no object cannot be looked into. -/
def check (s : Settings) : Project → Except Failure Report
  | .undescribed => .ok {}
  | .unreadable path =>
    .ok { warnings := ["Could not parse " ++ path ++ ", skipping dependency check"] }
  | .excessive excess => .error (.unreadable excess)
  | .described (.object description) =>
    let missing := (required s).filter fun name => !declares description name
    .ok { missing, warnings := warnings missing }
  | .described _ => .error .notAnObject

end ClientGen.Dependencies
