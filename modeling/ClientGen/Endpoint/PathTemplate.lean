import ClientGen.BasePath
import ClientGen.Naming.Words

/-!
# Path templates

The path of an operation as the body of a template literal of generated code: every parameter in
braces becomes an insertion of an argument.

* `PathTemplate`: the arguments and the text.
* `PathTemplate.ofPath`: the template of a path.
-/

namespace ClientGen

/-- The arguments that a path takes and the text into which they are inserted. -/
structure PathTemplate where
  /-- The names of the arguments, each once, in order. -/
  args : List String
  /-- The body of the template literal. -/
  text : String
deriving DecidableEq, Repr

namespace PathTemplate

/-- The argument for a parameter: its name as an identifier, or a numbered name if nothing is left
of it. -/
def argument (args : List String) (parameter : String) : String :=
  let name := Naming.camelCase parameter
  if name.isEmpty then "param" ++ toString (args.length + 1) else name

/-- A name in braces. -/
def braced (name : String) : String := "\x7b" ++ name ++ "\x7d"

/-- Inserts the argument for one parameter wherever the parameter stands in braces. -/
def insert (t : PathTemplate) (parameter : String) : PathTemplate :=
  let arg := argument t.args parameter
  { args := if t.args.contains arg then t.args else t.args ++ [arg]
    text := String.ofList
      (Text.replace (braced parameter).toList ("$" ++ braced arg).toList t.text.toList) }

/-- The text of a path inside a template literal, before anything is inserted. -/
def plain (path : String) : String :=
  String.ofList (path.toList.flatMap fun c => if c = '`' then ['\\', '`'] else [c])

/-- The template of a path. -/
def ofPath (path : String) : PathTemplate :=
  (BasePath.parameters path).foldl insert { args := [], text := plain path }

end PathTemplate

end ClientGen
