import ClientGen.Yaml.Scalar.Meaning
import ClientGen.Yaml.Tree

/-!
# YAML documents

Some YAML documents are read otherwise than YAML has it, since no `Node` stands for what they mean.
Dates are kept as their texts, so a date is a key or a name like any other text. Sets, binary values
and collections that contain themselves by way of an anchor are refused.

* `Wanted`: the type that is asked for in front of a node.
* `Tree.faults`: what keeps a tree from standing for something.
* `Meaning.ofTree`: what a tree stands for, with names replaced by the nodes they repeat.
* `Yaml.parse`: the document of a text.
-/

namespace ClientGen.Yaml

/-- The type that is asked for. -/
inductive Wanted where
  /-- None is: quotes and spelling decide. -/
  | anything
  /-- The spelling decides, quotes or not. -/
  | bySpelling
  /-- This type of the standard. -/
  | standard (name : String)
  /-- A type that is not known. -/
  | unknown

/-- The type that a full name asks for. Types outside of the standard are not known. -/
def Wanted.ofType : Option String → Wanted
  | none => .anything
  | some name =>
    if name = "!" then .bySpelling
    else if standardTypes.isPrefixOf name then
      .standard (String.ofList (name.toList.drop standardTypes.length))
    else .unknown

/-- The types of lists whose items are pairs, written as mappings of one member. -/
def pairTypes : List String := ["omap", "pairs"]

/-- The types of collections. -/
def collectionTypes : List String := ["seq", "map", "set"] ++ pairTypes

/-- How a list is read. -/
inductive ListKind where
  /-- As a list of its items. -/
  | items
  /-- As a list of pairs. -/
  | pairs

/-- How a list of this type is read, if it can be of this type. -/
def Wanted.listKind? : Wanted → Option ListKind
  | .anything | .bySpelling | .standard "seq" => some .items
  | .standard name => if pairTypes.contains name then some .pairs else none
  | .unknown => none

/-- Can a mapping be of this type? -/
def Wanted.allowsMap : Wanted → Bool
  | .anything | .bySpelling | .standard "map" => true
  | _ => false

/-- The named nodes so far. -/
abbrev Anchors := List (String × Meaning)

/-- A step that may use and add named nodes. -/
abbrev Reading := StateT Anchors (Except Fault)

namespace Meaning

/-- What a scalar stands for, given the type that is asked for. -/
def ofScalar (wanted : Wanted) (plain : Bool) (text : String) : Except Fault Meaning :=
  match wanted with
  | .anything => if plain then ofPlain text else .ok (.node (.text text))
  | .bySpelling => ofPlain text
  | .standard type => ofType type text
  | .unknown => .error .malformed

/-- The value, if it is one outside of a key. -/
def value? : Meaning → Option Node
  | .node value => some value
  | _ => none

/-- The members that a merge takes over, those that come later winning: of one mapping, or of a
list of mappings, of which the first one wins. -/
def mergedMembers : Node → Option Fields
  | .object fields => some fields
  | .list items => (items.reverse.mapM Node.object?).map List.flatten
  | _ => none

/-- The members of a mapping: those taken over, and its own. -/
structure Members where
  /-- The members taken over from other mappings. -/
  merged : List (Key × Node) := []
  /-- The members of the mapping itself. -/
  own : List (Key × Node) := []

/-- The members with one more of its own. A key has to be a scalar. -/
def Members.add (ms : Members) (key : Meaning) (value : Node) : Option Members :=
  match key with
  | .merge => none
  | .default => some { ms with own := ms.own ++ [(.text "=", value)] }
  | .node key => key.key?.map fun key => { ms with own := ms.own ++ [(key, value)] }

/-- The members with more that are taken over. -/
def Members.take (ms : Members) (more : Fields) : Members := { ms with merged := ms.merged ++ more }

/-- The mapping with these members. Its own members win over those taken over. -/
def Members.fields (ms : Members) : Fields := Fields.ofList (ms.merged ++ ms.own)

/-- Gives a name to what was read. -/
def remember (ps : Properties) (meaning : Meaning) : Reading Meaning := fun anchors =>
  match ps.anchor with
  | none => .ok (meaning, anchors)
  | some name => .ok (meaning, (name, meaning) :: anchors)

/-- The pair that a mapping of one member is. -/
def pair? : List (Node × Node) → Option Node
  | [(key, value)] => some (.list [key, value])
  | _ => none

mutual

/-- What a tree stands for. -/
def ofTree : Tree → Reading Meaning
  | .alias name => do orMalformed ((← get).lookup name)
  | .scalar ps plain text => do remember ps (← ofScalar (Wanted.ofType ps.type) plain text)
  | .list ps items =>
    match (Wanted.ofType ps.type).listKind? with
    | some .items => do remember ps (.node (.list (← ofItems items)))
    | some .pairs => do remember ps (.node (.list (← ofPairs items)))
    | none => throw .malformed
  | .map ps members => do
    if (Wanted.ofType ps.type).allowsMap then
      remember ps (.node (.object (← ofMembers {} members).fields))
    else throw .malformed

/-- The value that a tree stands for. -/
def valueOf (t : Tree) : Reading Node := do orMalformed (← ofTree t).value?

/-- What the items of a list stand for. -/
def ofItems : List Tree → Reading (List Node)
  | [] => pure []
  | t :: ts => do
    let value ← valueOf t
    return value :: (← ofItems ts)

/-- The pairs that the items of a list stand for. -/
def ofPairs : List Tree → Reading (List Node)
  | [] => pure []
  | .map _ members :: ts => do
    let pair ← orMalformed (pair? (← ofValues members))
    return pair :: (← ofPairs ts)
  | _ :: _ => throw .malformed

/-- What the keys and values of some members stand for. -/
def ofValues : List (Tree × Tree) → Reading (List (Node × Node))
  | [] => pure []
  | (k, v) :: ms => do
    let key ← valueOf k
    let value ← valueOf v
    return (key, value) :: (← ofValues ms)

/-- What the members of a mapping stand for, after some others. -/
def ofMembers (ms : Members) : List (Tree × Tree) → Reading Members
  | [] => pure ms
  | (k, v) :: rest => do
    match ← ofTree k with
    | .merge => ofMembers (ms.take (← taken v)) rest
    | key =>
      let value ← valueOf v
      ofMembers (← orMalformed (ms.add key value)) rest

/-- The members that a merge takes over from a tree. The type of the tree does not matter. -/
def taken : Tree → Reading Fields
  | .alias name => do
    let value ← orMalformed (((← get).lookup name).bind value?)
    orMalformed (mergedMembers value)
  | .scalar _ _ _ => throw .malformed
  | .map ps members => do
    let fields := (← ofMembers {} members).fields
    discard (remember ps (.node (.object fields)))
    return fields
  | .list ps items => do
    let nodes ← takenItems items
    discard (remember ps (.node (.list nodes)))
    orMalformed (mergedMembers (.list nodes))

/-- The mappings that a merge takes over from a list. -/
def takenItems : List Tree → Reading (List Node)
  | [] => pure []
  | t :: ts => do
    let node ← takenItem t
    return node :: (← takenItems ts)

/-- The mapping that a merge takes over from an item of a list. -/
def takenItem : Tree → Reading Node
  | .alias name => do orMalformed (((← get).lookup name).bind value?)
  | .map ps members => do
    let node := Node.object (← ofMembers {} members).fields
    discard (remember ps (.node node))
    return node
  | .scalar _ _ _ | .list _ _ => throw .malformed

end

end Meaning

namespace Tree

/-- Is this the type of a collection? -/
def isCollectionType : Wanted → Bool
  | .standard name => collectionTypes.contains name
  | _ => false

/-- The fault of a scalar at a level, if it stands for nothing; as a key it may be a sign for
members. -/
def scalarFault (isKey : Bool) (level : Nat) (ps : Properties) (plain : Bool) (text : String) :
    List (Nat × Fault) :=
  match Meaning.ofScalar (Wanted.ofType ps.type) plain text with
  | .ok (.node _) => []
  | .ok _ => if isKey then [] else [(level, .malformed)]
  | .error fault => [(level, fault)]

/-- The level at which a value of some type is found out to be of another kind. If the type is that
of a collection, that is when its items are looked for. -/
def misfitLevel (level : Nat) (wanted : Wanted) : Nat :=
  if isCollectionType wanted then level + 1 else level

/-- The fault of a collection of the wrong type. -/
def typeFault (level : Nat) (wanted : Wanted) : Nat × Fault :=
  (misfitLevel level wanted, .malformed)

/-- Is the key of a member the sign for a merge? -/
def isMerge : Tree → Bool
  | .scalar ps plain text =>
    match Meaning.ofScalar (Wanted.ofType ps.type) plain text with
    | .ok .merge => true
    | _ => false
  | _ => false

/-- The faults of the key of a member at a level. -/
def keyFaults (level : Nat) : Tree → List (Nat × Fault)
  | .alias _ => []
  | .scalar ps plain text => scalarFault true level ps plain text
  | .list _ _ | .map _ _ => [(level, .malformed)]

mutual

/-- What keeps a tree from standing for something, each fault with the level at which it is found:
what a collection holds is looked at after everything beside the collection, and what it takes over
from others belongs to it. -/
def faults (level : Nat) : Tree → List (Nat × Fault)
  | .alias _ => []
  | .scalar ps plain text =>
    scalarFault false (misfitLevel level (Wanted.ofType ps.type)) ps plain text
  | .list ps items =>
    match (Wanted.ofType ps.type).listKind? with
    | some .items => itemFaults (level + 1) items
    | some .pairs => pairFaults (level + 1) items
    | none => [typeFault level (Wanted.ofType ps.type)]
  | .map ps members =>
    if (Wanted.ofType ps.type).allowsMap then
      match memberFaults (level + 1) members with
      | some (merged, own) => merged ++ own
      | none => [(level + 1, .malformed)]
    else [typeFault level (Wanted.ofType ps.type)]

/-- The faults of the items of a list. -/
def itemFaults (level : Nat) : List Tree → List (Nat × Fault)
  | [] => []
  | t :: ts => t.faults level ++ itemFaults level ts

/-- The faults of the items of a list of pairs. -/
def pairFaults (level : Nat) : List Tree → List (Nat × Fault)
  | [] => []
  | .map _ [(k, v)] :: ts => k.faults level ++ v.faults level ++ pairFaults level ts
  | _ :: _ => [(level, .malformed)]

/-- The faults of the members that a mapping takes over, and those of its own members. None at all
if a merge names something that has no members. -/
def memberFaults (level : Nat) :
    List (Tree × Tree) → Option (List (Nat × Fault) × List (Nat × Fault))
  | [] => some ([], [])
  | (k, v) :: ms => do
    let (merged, own) ← memberFaults level ms
    if k.isMerge then return ((← takenFaults level v) ++ merged, own)
    else return (merged, k.keyFaults level ++ v.faults level ++ own)

/-- The faults of the members that a merge takes over from a tree. -/
def takenFaults (level : Nat) : Tree → Option (List (Nat × Fault))
  | .alias _ => some []
  | .scalar _ _ _ => none
  | .map _ members => (memberFaults level members).map fun (merged, own) => merged ++ own
  | .list _ items => takenItemFaults level items

/-- The faults of the members that a merge takes over from the items of a list, the last one's
first. -/
def takenItemFaults (level : Nat) : List Tree → Option (List (Nat × Fault))
  | [] => some []
  | .alias _ :: ts => takenItemFaults level ts
  | .map _ members :: ts => do
    let (merged, own) ← memberFaults level members
    return (← takenItemFaults level ts) ++ merged ++ own
  | .scalar _ _ _ :: _ | .list _ _ :: _ => none

end

/-- The first fault of a tree: the one at the least level, and of several there the first. -/
def firstFault? (t : Tree) : Option Fault :=
  let all := t.faults 0
  let least := all.foldl (fun n f => min n f.1) ((all.map (·.1)).headD 0)
  (all.find? (·.1 == least)).map (·.2)

end Tree

/-- Characters that may stand in a YAML text. -/
def isPrintable (c : Char) : Bool :=
  let n := c.toNat
  n == 0x09 || n == 0x0a || n == 0x0d || (0x20 ≤ n && n ≤ 0x7e) || n == 0x85
    || (0xa0 ≤ n && n ≤ 0xd7ff) || (0xe000 ≤ n && n ≤ 0xfffd) || 0x10000 ≤ n

/-- The value that the tree of a document stands for. -/
def nodeOfTree (t : Tree) : Except Fault Node :=
  match t.firstFault? with
  | some fault => .error fault
  | none => ((Meaning.valueOf t).run []).map (·.1)

/-- The document of a YAML text, null if there is none. A text with more than one document is not
read, and neither is one with a set, a binary value or a collection that contains itself. -/
def parse (text : String) : Except Fault Node := do
  let cs := text.toList
  if !cs.all isPrintable then throw .malformed
  match ← Tree.ofTokens (Token.ofText cs) with
  | none => return .null
  | some tree => nodeOfTree tree

end ClientGen.Yaml
