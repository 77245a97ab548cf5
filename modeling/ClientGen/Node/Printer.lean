import ClientGen.Node.Basic
import ClientGen.Number.Hexadecimal

/-!
# Writing JSON

The one-line JSON text of a node: members and items are separated by a comma and a space, a key
and its value by a colon and a space, and every character outside printable ASCII is escaped.

* `Json.quoted`: a text between quotes.
* `Key.jsonName`: a key as JSON knows it; keys that are no text are spelled like the value.
* `Node.jsonText`: a node.
-/

namespace ClientGen

namespace Json

/-- The escape of one unit of at most 16 bits. -/
def unitEscape (n : Nat) : List Char := '\\' :: 'u' :: Hexadecimal.digits 4 n

/-- A character inside a quoted text. Characters beyond the first plane are written as a pair of
units. -/
def escaped (c : Char) : List Char :=
  let n := c.toNat
  if c = '"' then ['\\', '"']
  else if c = '\\' then ['\\', '\\']
  else if c = '\n' then ['\\', 'n']
  else if c = '\r' then ['\\', 'r']
  else if c = '\t' then ['\\', 't']
  else if n = 0x08 then ['\\', 'b']
  else if n = 0x0c then ['\\', 'f']
  else if 0x20 ≤ n ∧ n < 0x7f then [c]
  else if n < 0x10000 then unitEscape n
  else
    let (high, low) := Surrogate.halves c
    unitEscape high ++ unitEscape low

/-- A text between quotes. -/
def quoted (s : String) : String :=
  "\"" ++ String.ofList (s.toList.flatMap escaped) ++ "\""

/-- The text of a number that carries a fraction or an exponent. -/
def realText : Binary64 → String := Binary64.textWith "NaN" "Infinity"

end Json

/-- The name of a member in JSON. -/
def Key.jsonName : Key → String
  | .null => "null"
  | .bool b => if b then "true" else "false"
  | .int n => toString n
  | .real x => Json.realText x
  | .text s => s

mutual

/-- The JSON text of a node. -/
def Node.jsonText : Node → String
  | .null => "null"
  | .bool b => if b then "true" else "false"
  | .int n => toString n
  | .real x => Json.realText x
  | .text s => Json.quoted s
  | .list items => "[" ++ itemsText items ++ "]"
  | .object fields => "\x7b" ++ membersText fields ++ "\x7d"

/-- The items of a list, separated by commas. -/
def itemsText : List Node → String
  | [] => ""
  | [x] => x.jsonText
  | x :: xs => x.jsonText ++ ", " ++ itemsText xs

/-- The members of an object, separated by commas. -/
def membersText : List (Key × Node) → String
  | [] => ""
  | [(k, v)] => Json.quoted k.jsonName ++ ": " ++ v.jsonText
  | (k, v) :: fields => Json.quoted k.jsonName ++ ": " ++ v.jsonText ++ ", " ++ membersText fields

end

end ClientGen
