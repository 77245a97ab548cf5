import ClientGen.Node.Basic
import ClientGen.Text.Case
import ClientGen.Text.Letter

/-!
# Setting names and layers

Settings may be named in any style, and come in layers.

* `Config.snakeCase`: the name of a setting in small letters with underscores between words.
* `Config.camelCase`: the other usual name, with a capital letter for each underscore.
* `Config.snakeKeys`: an object with all its keys in that style.
* `Config.overlay`: an object with the members of another one laid over it.
-/

namespace ClientGen.Config

/-- Does an underscore belong between two neighbouring characters, the second followed by `next`? -/
def needsUnderscore (a b : Char) (next : Option Char) : Bool :=
  if Text.isAsciiUpper b then
    Text.isAsciiLower a || Text.isAsciiDigit a
      || (Text.isAsciiUpper a && next.any Text.isAsciiLower)
  else Text.isAsciiDigit b && Text.isAsciiLower a

/-- A text with underscores between the words that case and digits set apart. -/
def withUnderscores : List Char → List Char
  | [] => []
  | a :: rest =>
    match rest with
    | b :: later =>
      if needsUnderscore a b later.head? then a :: '_' :: withUnderscores rest
      else a :: withUnderscores rest
    | [] => [a]

/-- The name of a setting in small letters, with underscores for hyphens and between words. -/
def snakeCase (name : String) : String :=
  String.ofList (Text.lower
    ((withUnderscores name.toList).map fun c => if c = '-' then '_' else c))

/-- A text with a capital letter for each underscore and the small letter after it. -/
def withCapitals : List Char → List Char
  | '_' :: c :: cs => (if Text.isAsciiLower c then Text.upperChar c else [c]) ++ withCapitals cs
  | c :: cs => c :: withCapitals cs
  | [] => []

/-- The other usual name of a setting whose name has underscores between words. -/
def camelCase (name : String) : String := String.ofList (withCapitals name.toList)

mutual

/-- A node with the keys of all objects in `snakeCase`. Objects inside lists stay as they are. -/
def snakeKeys : Node → Node
  | .object fields => .object (Fields.ofList (snakeFields fields))
  | node => node

/-- Members with their keys, and those of the objects in them, in `snakeCase`. -/
def snakeFields : List (Key × Node) → List (Key × Node)
  | [] => []
  | (k, v) :: rest => (.text (snakeCase k.label), snakeKeys v) :: snakeFields rest

end

mutual

/-- The value that takes the place of an old one: two objects are laid over each other. -/
def overlayNode (old : Option Node) : Node → Node
  | .object fields => match old with
    | some (.object base) => .object (overlay base fields)
    | _ => .object fields
  | node => node

/-- An object with the members of another one laid over it. A null leaves the old value. -/
def overlay (base : Fields) : List (Key × Node) → Fields
  | [] => base
  | (k, v) :: rest =>
    overlay (match v with
      | .null => base
      | v => Fields.put base k (overlayNode (Fields.value? base k) v)) rest

end

end ClientGen.Config
