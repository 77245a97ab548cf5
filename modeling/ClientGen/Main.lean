import ClientGen.CommandLine.Execution

/-!
# The program

The run itself is a function of the files around it. Here these files are read, and what the run
changed is written.

* `Invocation.reads`: the files that a run may look at.
* `main`: the program.
-/

namespace ClientGen

/-- The files that a run may look at: the package description, the configuration files and the
source, as far as it is known which one that is. -/
def Invocation.reads (i : Invocation) (t : FileTree) : List Path :=
  let here : Path := ⟨.root, t.workingDirectory⟩
  let source := match i.load t with
    | .ok settings => [here.child settings.source]
    | .error _ => []
  (("package.json" :: i.config.toList) ++ Config.fileNames).map here.child ++ source

/-- The files that a run on this tree touches. -/
def touched (server : String → Response) (i : Invocation) (t : FileTree) : List Path :=
  match ((Run.invocation server i).run { tree := t }).1 with
  | .ok (_, summary) => i.reads t ++ summary.files.map (·.1)
  | .error _ => i.reads t

namespace Program

/-- Servers cannot be reached. -/
def server (_ : String) : Response := .failed "network access is not available"

/-- The name of a place in the file system. -/
def nameOf (segments : List String) : String := "/" ++ "/".intercalate segments

/-- The tree with what stands at a place in the file system. -/
def look (t : FileTree) (segments : List String) : IO FileTree := do
  let name := nameOf segments
  if t.isDirectory segments || (t.textAt? segments).isSome then return t
  try
    if ← (← IO.FS.realPath name).isDir then return t.addDirectory segments
    return t.store segments (← IO.FS.readFile name)
  catch _ => return t

/-- The tree with what stands at some paths and on the way to them. -/
def lookAll (t : FileTree) (paths : List Path) : IO FileTree :=
  let places := paths.flatMap fun p => FileTree.directoriesTo (p.absolute t.workingDirectory)
  places.eraseDups.foldlM look t

/-- The tree with all files that a run touches. Which ones these are becomes known step by step:
first the configuration, then the source, then what is written. -/
def lookAround (i : Invocation) (t : FileTree) : IO FileTree := do
  let mut t := t
  for _ in [0, 1, 2] do
    t ← lookAll t (touched server i t)
  return t

/-- Writes the files that differ between two trees. -/
def store (old new : FileTree) : IO Unit := do
  for (segments, text) in new.files do
    if old.textAt? segments ≠ some text then
      IO.FS.createDirAll (nameOf segments.dropLast)
      IO.FS.writeFile (nameOf segments) text

end Program

end ClientGen

open ClientGen in
/-- Runs the program on the words after its name. -/
def main (words : List String) : IO UInt32 := do
  let here := Path.ofText (← IO.currentDir).toString
  let home := (← IO.getEnv "HOME").map fun home => ("", (Path.ofText home).segments)
  let empty := { FileTree.empty here.segments with homes := home.toList }
  let tree ← match Command.ofWords words with
    | .ok (.generate i) => Program.lookAround i empty
    | _ => pure empty
  let (ending, workspace) := (execute Program.server words).run { tree }
  Program.store tree workspace.tree
  for warning in workspace.warnings do
    IO.eprintln ("WARNING: " ++ warning)
  IO.print ending.output
  IO.eprint ending.complaint
  return ending.exitCode.toUInt32
