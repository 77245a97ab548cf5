import ClientGen.Text.Replace
import ClientGen.Text.Lines

/-!
# Base paths

Operations of one interface often share the beginning of their paths. A list of base paths says
what to strip.

* `BasePath.strip`: a path without the first base path that it starts with.
* `BasePath.parameters`: the names between braces in a path.
-/

namespace ClientGen.BasePath

/-- The base paths of a setting: those that are not empty, in order. -/
def ofList (paths : List String) : List String := paths.filter (· ≠ "")

/-- A path that starts with a slash. -/
def rooted (path : String) : String :=
  if path.toList.head? = some '/' then path else "/" ++ path

/-- A path without the first of the base paths that it starts with. What is left starts with a
slash; a path that starts with none of them stays as it is. -/
def strip (path : String) (basePaths : List String) : String :=
  match basePaths.find? fun b => b ≠ "" && Text.startsWith b.toList path.toList with
  | some b => rooted (String.ofList (path.toList.drop b.toList.length))
  | none => path

/-- The names between braces: each runs from an opening brace to the next closing brace and is not
empty. The first argument counts the characters that still belong to the name read last. -/
def parametersFrom : Nat → List Char → List String
  | _, [] => []
  | skip + 1, _ :: cs => parametersFrom skip cs
  | 0, c :: cs =>
    let name := Text.before '}' cs
    if c = '{' && !name.isEmpty && name.length < cs.length then
      String.ofList name :: parametersFrom (name.length + 1) cs
    else parametersFrom 0 cs

/-- The parameters of a path, in order and with repetitions. -/
def parameters (path : String) : List String := parametersFrom 0 path.toList

end ClientGen.BasePath
