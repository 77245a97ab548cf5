import ClientGen.Failure
import ClientGen.Path

/-!
# File trees

The files that a run reads and writes, as a value.

* `FileTree`: directories and files by their segments from the root, and the working directory.
* `FileTree.locate?`: where a path leads, directory by directory.
* `FileTree.expand?`: a path that may start at the home directory of a user.
* `Disk`: a computation that may fail and keeps the tree up to the failure.
* `Disk.makeDirectories`, `Disk.read?`, `Disk.write`: the operations.
-/

namespace ClientGen

/-- Directories and files, by their segments from the root. -/
structure FileTree where
  /-- The directories besides the root. -/
  directories : List (List String)
  /-- The files and their texts. -/
  files : List (List String × String)
  /-- The directory from which paths start. -/
  workingDirectory : List String
  /-- The home directories of users. The user without a name is the one who runs the program. -/
  homes : List (String × List String) := []

namespace FileTree

/-- The most bytes that the name of a file or directory may have. -/
def longestName : Nat := 255

/-- The most bytes that a path may have. -/
def longestPath : Nat := 4095

/-- The directories that lead to a place, the place itself included. -/
def directoriesTo (segments : List String) : List (List String) :=
  (List.range segments.length).map fun n => segments.take (n + 1)

/-- The tree with an empty working directory. -/
def empty (workingDirectory : List String) : FileTree :=
  { directories := directoriesTo workingDirectory, files := [], workingDirectory }

/-- Is there a directory at these segments? -/
def isDirectory (t : FileTree) (segments : List String) : Bool :=
  segments.isEmpty || t.directories.contains segments

/-- The text of the file at these segments. -/
def textAt? (t : FileTree) (segments : List String) : Option String := t.files.lookup segments

/-- Where further segments lead from a place. Only a directory can be left again. -/
def walk (t : FileTree) : List String → List String → Option (List String)
  | current, [] => some current
  | current, segment :: rest =>
    if t.isDirectory current then walk t (Path.step current segment) rest else none

/-- The place where a path starts. -/
def start (t : FileTree) (p : Path) : List String :=
  match p.anchor with
  | .here => t.workingDirectory
  | _ => []

/-- Where a path leads. -/
def locate? (t : FileTree) (p : Path) : Option (List String) := t.walk (t.start p) p.segments

/-- Does the way along some segments come to a name that is too long? Beyond a place where there is
no directory names do not matter. -/
def meetsLongName (t : FileTree) : List String → List String → Bool
  | _, [] => false
  | current, segment :: rest =>
    t.isDirectory current
      && (longestName < segment.utf8ByteSize || meetsLongName t (Path.step current segment) rest)

/-- Is a path too long, or does it lead to a name that is? -/
def isTooLong (t : FileTree) (p : Path) : Bool :=
  longestPath < p.text.utf8ByteSize || t.meetsLongName (t.start p) p.segments

/-- The path with the home directory of a user in place of a first segment that starts with a tilde
and goes on with the name of the user; none if the user is not known. -/
def expand? (t : FileTree) (p : Path) : Option Path :=
  match p.anchor, p.segments with
  | .here, first :: rest => match first.toList with
    | '~' :: user => (t.homes.lookup (String.ofList user)).map fun home => ⟨.root, home ++ rest⟩
    | _ => some p
  | _, _ => some p

/-- The text of the file at a path. -/
def file? (t : FileTree) (p : Path) : Option String := (t.locate? p).bind t.textAt?

/-- Is there a file at a path? -/
def isFile (t : FileTree) (p : Path) : Bool := (t.file? p).isSome

/-- The text of the file at a path as it is read: with line feeds as its only line ends. -/
def read? (t : FileTree) (p : Path) : Option String :=
  (t.file? p).map fun s => String.ofList (Text.unifyNewlines s.toList)

/-- Sets the text of a file among others. -/
def putFile (segments : List String) (text : String) :
    List (List String × String) → List (List String × String)
  | [] => [(segments, text)]
  | (s, old) :: rest =>
    if s = segments then (s, text) :: rest else (s, old) :: putFile segments text rest

/-- The tree with a text stored at segments. -/
def store (t : FileTree) (segments : List String) (text : String) : FileTree :=
  { t with files := putFile segments text t.files }

/-- The tree with a directory. -/
def addDirectory (t : FileTree) (segments : List String) : FileTree :=
  { t with directories := t.directories ++ [segments] }

/-- The tree with a file at a path below the working directory, and the directories to it. -/
def provide (t : FileTree) (p : Path) (text : String) : FileTree :=
  let segments := p.absolute t.workingDirectory
  let missing := (directoriesTo segments.dropLast).filter fun d => !t.isDirectory d
  { t with directories := t.directories ++ missing }.store segments text

end FileTree

/-- A computation over a file tree. What was written before a failure stays. -/
abbrev Disk := ExceptT Failure (StateM FileTree)

namespace Disk

/-- Makes the directories that are missing on the way along some segments, starting at a
directory. -/
def makeWay (current : List String) : List String → Disk Unit
  | [] => pure ()
  | segment :: rest => do
    let next := Path.step current segment
    let t ← get
    if t.isDirectory next then makeWay next rest
    else if FileTree.longestName < segment.utf8ByteSize then throw .nameTooLong
    else if (t.textAt? next).isSome then
      throw (if rest.isEmpty then .fileInTheWay else .throughAFile)
    else do
      set (t.addDirectory next)
      makeWay next rest

/-- Makes a directory and those on the way to it, where they are missing. -/
def makeDirectories (p : Path) : Disk Unit := do
  makeWay ((← get).start p) p.segments

/-- The text of the file at a path as it is read; none if nothing is there. -/
def read? (p : Path) : Disk (Option String) := do
  let t ← get
  if t.isTooLong p then throw .nameTooLong
  match t.locate? p with
  | none => return none
  | some segments =>
    if t.isDirectory segments then throw .directoryInTheWay
    else return t.read? p

/-- Writes a text to the file at a path whose directory exists. -/
def write (p : Path) (text : String) : Disk Unit := do
  let t ← get
  match t.locate? p with
  | none => throw .throughAFile
  | some segments => set (t.store segments text)

end Disk

end ClientGen
