import ClientGen.Config.File
import ClientGen.Dependencies
import ClientGen.Model.Generation
import ClientGen.Output.Files

/-!
# Runs

A run reads a document and writes the code for it.

* `Workspace`, `Run`: what a run works on, and a computation on it.
* `Summary`: what a run wrote.
* `Run.generate`: a run.
-/

namespace ClientGen

/-- What a run works on. -/
structure Workspace where
  /-- The files. -/
  tree : FileTree
  /-- The warnings so far. -/
  warnings : List String := []

/-- A computation on a workspace. What was written and said before a failure stays. -/
abbrev Run := ExceptT Failure (StateM Workspace)

/-- What a run produced. -/
structure Summary where
  /-- The number of tags. -/
  tags : Nat
  /-- The number of operations. -/
  operations : Nat
  /-- The number of declared models. -/
  declarations : Nat
  /-- The files in the order of writing, with what became of them. -/
  files : List (Path × WriteOutcome)
deriving Repr

/-- The number of files with an outcome. -/
def Summary.count (s : Summary) (outcome : WriteOutcome) : Nat :=
  (s.files.filter fun f => f.2 = outcome).length

namespace Run

/-- A computation on the files. -/
def onDisk {α : Type} (x : Disk α) : Run α := fun w =>
  let (r, tree) := x.run w.tree
  (r, { w with tree })

/-- An expansion that starts with no declared names and no references looked up. -/
def expanding {α : Type} (x : Expansion α) : Run α := fun w =>
  let (r, session) := ExceptT.run x {}
  (r, { w with warnings := w.warnings ++ session.warnings })

/-- Adds warnings. -/
def warn (warnings : List String) : Run Unit :=
  modify fun w => { w with warnings := w.warnings ++ warnings }

/-- Writes files below the output directory. -/
def writeAll (s : Settings) (files : List GeneratedFile) : Run (List (Path × WriteOutcome)) :=
  files.mapM fun f => do
    let outcome ← onDisk (Disk.put s.outputPath f.name f.text f.mode)
    return (s.outputPath.child f.name, outcome)

/-- Looks for missing packages, unless that is switched off. -/
def checkDependencies (s : Settings) : Run Unit := do
  if !(s.hooks.skipDependencyCheck || s.axios.skipDependencyCheck) then
    let report ← ofExcept (Dependencies.check s (.find (← get).tree))
    warn report.warnings

/-- The document that is given, or that of the source. Servers answer as `server` says. -/
def document (server : String → Response) (s : Settings) : Option Node → Run Node
  | some document => pure document
  | none => do
    let tree := (← get).tree
    ofExcept (if Document.isUrl s.source then Document.receive s.source (server s.source)
      else Document.read tree s.source)

/-- Reads a document and writes the code for it. Nothing is written before all models are known. -/
def generate (server : String → Response) (s : Settings) (given : Option Node) : Run Summary := do
  checkDependencies s
  let document ← Run.document server s given
  let catalog ← ofExcept (Catalog.ofDocument document s.basePaths.paths)
  let models ← expanding (Generation.models { document } catalog)
  let modelFiles ← writeAll s (Output.modelFiles s models)
  let groups ← ofExcept (EndpointGroup.ofCatalog models catalog)
  let workingDirectory := (← get).tree.workingDirectory
  let groupFiles ← writeAll s (Output.groupFiles s workingDirectory models groups)
  return {
    tags := catalog.length
    operations := catalog.count
    declarations := models.declarationCount
    files := modelFiles ++ groupFiles }

end Run

end ClientGen
