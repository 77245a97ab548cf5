import ClientGen.Number.Shortest

/-!
# Document nodes

A document is a tree of nodes. Objects keep their members in the order of the text; a key stands
in an object at most once.

* `Key`: the scalars that can name a member. Text read as JSON has text keys only; a YAML mapping
  may also use numbers, truth values and null.
* `Node`: the values of a document.
* `Fields`: the members of an object, with `Fields.value?`, `Fields.get?`, `Fields.put` and
  `Fields.ofList`.
* `Node.get?`, `Node.isTrue`: what the rest of the library asks of a node.
-/

namespace ClientGen

/-- The name of an object member. -/
inductive Key where
  /-- The null key. -/
  | null
  /-- A truth value. -/
  | bool (value : Bool)
  /-- A whole number. -/
  | int (value : Int)
  /-- A number with a fraction or an exponent. -/
  | real (value : Binary64)
  /-- A text, the only kind of key in JSON. -/
  | text (value : String)
deriving DecidableEq, Repr

namespace Key

/-- The representative of all keys that name the same member: numbers of equal value do, and a
truth value counts as 0 or 1. -/
def canonical : Key → Key
  | .bool b => .int (if b then 1 else 0)
  | .real x => match x.toInt? with
    | some n => .int n
    | none => .real x
  | k => k

/-- Do two keys name the same member? -/
def same (a b : Key) : Bool := a.canonical = b.canonical

/-- A key as text. Keys that are no text are spelled the way the program names such values. -/
def label : Key → String
  | .null => "None"
  | .bool b => if b then "True" else "False"
  | .int n => toString n
  | .real x => x.text
  | .text s => s

/-- The key is a text. -/
def isText : Key → Bool
  | .text _ => true
  | _ => false

end Key

/-- A value of a document. -/
inductive Node where
  /-- The null value. -/
  | null
  /-- A truth value. -/
  | bool (value : Bool)
  /-- A whole number of any size. -/
  | int (value : Int)
  /-- A number written with a fraction or an exponent. -/
  | real (value : Binary64)
  /-- A text. -/
  | text (value : String)
  /-- A list of nodes. -/
  | list (items : List Node)
  /-- An object: members in order. -/
  | object (fields : List (Key × Node))
deriving Repr

/-- The members of an object, in order. -/
abbrev Fields := List (Key × Node)

namespace Fields

/-- The value under a key. -/
def value? (fields : Fields) (key : Key) : Option Node :=
  (List.find? (fun f => f.1.same key) fields).map (·.2)

/-- The value under a text key. -/
def get? (fields : Fields) (name : String) : Option Node := value? fields (.text name)

/-- Is there a member with this text key? -/
def has (fields : Fields) (name : String) : Bool := (fields.get? name).isSome

/-- Sets a member. A key that is already there keeps its position. -/
def put : Fields → Key → Node → Fields
  | [], key, value => [(key, value)]
  | (k, v) :: rest, key, value =>
    if k.same key then (k, value) :: rest else (k, v) :: put rest key value

/-- The object written as these members one after another: a repeated key keeps its first
position and takes its last value. -/
def ofList (members : List (Key × Node)) : Fields :=
  members.foldl (fun fields m => put fields m.1 m.2) []

/-- All members of the second object set in the first. -/
def update (fields additions : Fields) : Fields :=
  additions.foldl (fun fields m => put fields m.1 m.2) fields

end Fields

namespace Node

/-- The member of an object under a text key; other nodes have no members. -/
def get? : Node → String → Option Node
  | .object fields, name => Fields.get? fields name
  | _, _ => none

/-- The members of an object; other nodes have none. -/
def fields : Node → Fields
  | .object fields => fields
  | _ => []

/-- Is the node an object? -/
def isObject : Node → Bool
  | .object _ => true
  | _ => false

/-- A node as a truth value: all but null, false, zero and what is empty counts as true. -/
def isTrue : Node → Bool
  | .null => false
  | .bool b => b
  | .int n => n ≠ 0
  | .real x => !x.isZero
  | .text s => !s.isEmpty
  | .list items => !items.isEmpty
  | .object fields => !fields.isEmpty

/-- The text of a text node. -/
def text? : Node → Option String
  | .text s => some s
  | _ => none

/-- The items of a list node. -/
def list? : Node → Option (List Node)
  | .list items => some items
  | _ => none

/-- The members of an object node. -/
def object? : Node → Option Fields
  | .object fields => some fields
  | _ => none

/-- The text of a text node that is not empty. -/
def nonEmptyText? : Node → Option String
  | .text s => if s.isEmpty then none else some s
  | _ => none

/-- The scalar that a key is. -/
def ofKey : Key → Node
  | .null => .null
  | .bool b => .bool b
  | .int n => .int n
  | .real x => .real x
  | .text s => .text s

/-- The key that a scalar can serve as. Lists and objects name nothing. -/
def key? : Node → Option Key
  | .null => some .null
  | .bool b => some (.bool b)
  | .int n => some (.int n)
  | .real x => some (.real x)
  | .text s => some (.text s)
  | .list _ => none
  | .object _ => none

end Node

end ClientGen
