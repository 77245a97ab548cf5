import ClientGen.Node.Basic
import ClientGen.Number.Reading
import ClientGen.Text.Replace
import ClientGen.Text.Lines

/-!
# Pointers

A pointer names a node of a document by the way from its root: `#/components/schemas/Widget`.
In a step, `~1` stands for a slash and `~0` for a tilde.

* `Pointer.unescape`: the name that a step stands for.
* `Pointer.resolve`: the node at the end of the way, if every step leads somewhere.
* `Pointer.lastName`: the last step of a pointer as it is written.
-/

namespace ClientGen.Pointer

/-- The name that a step stands for. The escape of the slash is undone first. -/
def unescape (step : List Char) : List Char :=
  Text.replace ['~', '0'] ['~'] (Text.replace ['~', '1'] ['/'] step)

/-- The item at a position; negative positions count from the end. -/
def itemAt? (items : List Node) (position : Int) : Option Node :=
  if 0 ≤ position then items[position.toNat]?
  else if 0 ≤ position + items.length then items[(position + items.length).toNat]?
  else none

/-- One step down from a node: by key in an object, by position in a list. -/
def down (node : Node) (step : List Char) : Option Node :=
  let name := unescape step
  match node with
  | .object fields => Fields.get? fields (String.ofList name)
  | .list items => (readInteger name).bind (itemAt? items)
  | _ => none

/-- The steps of a pointer behind its leading hash sign. Empty steps lead nowhere and are left
out. -/
def steps (afterHash : List Char) : List (List Char) :=
  (Text.splitOn '/' afterHash).filter fun step => !step.isEmpty

/-- The node that a pointer names. Only pointers into the document itself, which start with a hash
sign, name one. -/
def resolve (document : Node) (pointer : String) : Option Node :=
  match pointer.toList with
  | '#' :: afterHash => (steps afterHash).foldlM down document
  | _ => none

/-- The last step of a pointer as it is written; slashes at the end do not count. -/
def lastName (pointer : String) : String :=
  let cs := Text.dropEnd (· = '/') pointer.toList
  String.ofList ((cs.reverse.takeWhile (· ≠ '/')).reverse)

end ClientGen.Pointer
