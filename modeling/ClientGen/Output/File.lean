import ClientGen.File.Writer

/-!
# Generated files

* `GeneratedFile`: a file that is to be written.
* `textOfLines`: the text of a file from its lines.
-/

namespace ClientGen

/-- A file that is to be written. -/
structure GeneratedFile where
  /-- The name of the file below the output directory. -/
  name : String
  /-- The text. -/
  text : String
  /-- What happens if the file exists. -/
  mode : WriteMode := .replace
deriving Repr

/-- The text of some lines, each ended by a line feed. -/
def textOfLines (lines : List String) : String := String.join (lines.map (· ++ "\n"))

end ClientGen
