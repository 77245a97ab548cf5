import ClientGen.Text.Lines

/-!
# Paths

Slash-separated paths, as they are written in settings and in import statements.

* `Path`: an anchor and the segments after it. Empty segments and single dots are dropped when a
  path is read; double dots stay.
* `Path.join`: a path below another one. An absolute right-hand side replaces the left.
* `Path.absolute`: the segments from the root, without double dots, by the letters of the path
  alone.
* `Path.relativeTo`: the way from one directory to another.
* `Path.importSpecifier`: that way as the specifier of a relative import.
-/

namespace ClientGen

/-- Where a path starts. -/
inductive Anchor where
  /-- At the working directory. -/
  | here
  /-- At the root. -/
  | root
  /-- At the root written with exactly two slashes, which is kept apart. -/
  | doubleRoot
deriving DecidableEq, Repr

/-- The slashes that stand for an anchor. -/
def Anchor.text : Anchor → String
  | .here => ""
  | .root => "/"
  | .doubleRoot => "//"

/-- A path: an anchor and the segments from there. -/
structure Path where
  /-- Where the path starts. -/
  anchor : Anchor
  /-- The segments, none of them empty or a single dot. -/
  segments : List String
deriving DecidableEq, Repr

namespace Path

/-- The anchor that a text starts with. -/
def anchorOf (text : String) : Anchor :=
  match text.toList with
  | '/' :: '/' :: '/' :: _ => .root
  | '/' :: '/' :: _ => .doubleRoot
  | '/' :: _ => .root
  | _ => .here

/-- The segments of a text that name something: neither empty nor a single dot. -/
def segmentsOf (text : String) : List String :=
  ((Text.splitOn '/' text.toList).map String.ofList).filter fun s => s ≠ "" && s ≠ "."

/-- The path that a text denotes. -/
def ofText (text : String) : Path := ⟨anchorOf text, segmentsOf text⟩

/-- A path as text; the working directory itself is a single dot. -/
def text (p : Path) : String :=
  match p.anchor, p.segments with
  | .here, [] => "."
  | anchor, segments => anchor.text ++ "/".intercalate segments

/-- The path `q` seen from `p`. -/
def join (p q : Path) : Path :=
  match q.anchor with
  | .here => { p with segments := p.segments ++ q.segments }
  | _ => q

/-- The path that a text denotes below `p`. -/
def child (p : Path) (text : String) : Path := p.join (ofText text)

/-- The path without its last segment. -/
def parent (p : Path) : Path := { p with segments := p.segments.dropLast }

/-- The last segment. -/
def name (p : Path) : String := p.segments.getLast?.getD ""

/-- The part of the last segment from its last dot on. A dot at either end of the segment starts
no suffix. -/
def suffix (p : Path) : String :=
  let cs := p.name.toList
  let after := (cs.reverse.takeWhile (· ≠ '.')).reverse
  let stem := cs.take (cs.length - after.length - 1)
  if stem.isEmpty || after.isEmpty then "" else String.ofList ('.' :: after)

/-- One more segment at the end of segments in normal form: a double dot takes back the last one.
At the root a double dot leads nowhere. -/
def step (segments : List String) (segment : String) : List String :=
  if segment = ".." then segments.dropLast else segments ++ [segment]

/-- The segments of a path counted from the root, given those of the working directory. -/
def absolute (workingDirectory : List String) (p : Path) : List String :=
  match p.anchor with
  | .here => (workingDirectory ++ p.segments).foldl step []
  | _ => p.segments.foldl step []

/-- Two lists without the part that both start with. -/
def withoutCommon {α : Type} [DecidableEq α] : List α → List α → List α × List α
  | a :: as, b :: bs => if a = b then withoutCommon as bs else (a :: as, b :: bs)
  | as, bs => (as, bs)

/-- The segments that lead from one directory to another: up to the last common directory and
down from there. -/
def way (start target : List String) : List String :=
  let (up, down) := withoutCommon start target
  up.map (fun _ => "..") ++ down

/-- The way from one directory to a target, as text. -/
def relativeTo (workingDirectory : List String) (start target : Path) : String :=
  match way (start.absolute workingDirectory) (target.absolute workingDirectory) with
  | [] => "."
  | segments => "/".intercalate segments

/-- The specifier by which a file in the directory `start` imports `target`. It starts with a
dot. -/
def importSpecifier (workingDirectory : List String) (start target : Path) : String :=
  let way := relativeTo workingDirectory start target
  if way.toList.head? = some '.' then way else "./" ++ way

end Path

end ClientGen
