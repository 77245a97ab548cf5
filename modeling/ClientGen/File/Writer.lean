import ClientGen.File.Tree
import ClientGen.Model.Merge

/-!
# Writing generated files

* `WriteMode`: what happens to a file that exists.
* `WriteOutcome`: what became of a file.
* `Disk.put`: writes one generated file.
-/

namespace ClientGen

/-- What happens to a file that exists. -/
inductive WriteMode where
  /-- The file gets the new text. -/
  | replace
  /-- The file gets what the new text adds to it. -/
  | merge
deriving DecidableEq, Repr

/-- What became of a file. -/
inductive WriteOutcome where
  /-- The file is new. -/
  | created
  /-- The file has a new text. -/
  | updated
  /-- The file was left alone, since its text would have stayed the same. -/
  | skipped
deriving DecidableEq, Repr

/-- The word for an outcome. -/
def WriteOutcome.name : WriteOutcome → String
  | .created => "created"
  | .updated => "updated"
  | .skipped => "skipped"

/-- The text that a file ends up with. -/
def WriteMode.combine (mode : WriteMode) (old new : String) : String :=
  match mode with
  | .replace => new
  | .merge => ModuleText.mergeTexts old new

/-- Fails if a path has a null character or is too long as a whole. -/
def Disk.checkPath (p : Path) : Disk Unit :=
  if p.text.toList.contains '\x00' then throw .nullInPath
  else if FileTree.longestPath < p.text.utf8ByteSize then throw .nameTooLong
  else pure ()

/-- Writes one generated file below a base directory. The directories on the way are made. -/
def Disk.put (base : Path) (name text : String) (mode : WriteMode) : Disk WriteOutcome := do
  let path := base.child name
  Disk.checkPath path.parent
  Disk.makeDirectories path.parent
  Disk.checkPath path
  match ← Disk.read? path with
  | none =>
    Disk.write path text
    return .created
  | some old =>
    let combined := mode.combine old text
    if combined = old then return .skipped
    else
      Disk.write path combined
      return .updated

end ClientGen
