import ClientGen.Yaml.Token

/-!
# YAML trees

The nesting of a YAML text, before it is known what its scalars mean.

* `Tree`: nodes with their names and types.
* `Source`, `Reader`: reading trees from tokens.
* `Tree.ofTokens`: the tree of the single document in some tokens.

Reading goes from the tokens that are left to a tree and the tokens after it, and ends with a fault
where the tokens do. The numbers bound the depth of the recursion; a call takes a token or descends
at most twice without taking one. The room is the number of lists and mappings that may still be
opened inside each other.
-/

namespace ClientGen.Yaml

/-- What is written in front of a node. -/
structure Properties where
  /-- The name under which the node can be repeated. -/
  anchor : Option String := none
  /-- The full name of the type. -/
  type : Option String := none

/-- A node of a YAML text. -/
inductive Tree where
  /-- A repetition of the node with this name. -/
  | alias (name : String)
  /-- A scalar, written without quotes or in some other way. -/
  | scalar (properties : Properties) (plain : Bool) (text : String)
  /-- A list. -/
  | list (properties : Properties) (items : List Tree)
  /-- A mapping. -/
  | map (properties : Properties) (members : List (Tree × Tree))

/-- The name that the standard types start with. -/
def standardTypes : String := "tag:yaml.org,2002:"

/-- What is left to read, and what has been read that decides how it is read. -/
structure Source where
  /-- The tokens that are left. -/
  tokens : List Token
  /-- The names given to nodes so far. -/
  names : List String := []
  /-- What the handles of types stand for, if the text says so. -/
  handles : List (String × String) := []

/-- A reader of trees or parts of trees. -/
abbrev Reader := StateT Source (Except Fault)

namespace Reader

/-- The next token, if there is one. -/
def peek : Reader (Option Token) := fun s =>
  match s.tokens.head? with
  | some (.broken fault) => .error fault
  | t => .ok (t, s)

/-- Goes on to the token after the next one. -/
def advance : Reader Unit := modify fun s => { s with tokens := s.tokens.tail }

/-- Does one of some tokens come next? -/
def comesNext (tokens : List Token) : Reader Bool := return (← peek).any tokens.contains

/-- Takes the next token if it is this one. Says whether it is. -/
def accept (token : Token) : Reader Bool := do
  if (← peek) = some token then
    advance
    return true
  else return false

/-- The name that is given to the next node, if there is one. -/
def anchor? : Reader (Option String) := do
  match ← peek with
  | some (.anchor name) =>
    advance
    return some name
  | _ => return none

/-- The type that is written before the next node, if there is one. -/
def tag? : Reader (Option Tag) := do
  match ← peek with
  | some (.tag tag) =>
    advance
    return some tag
  | _ => return none

/-- The full name of a type. What a handle stands for may be stated in the text; two handles always
stand for something. -/
def fullName (tag : Tag) : Reader String := do
  match tag.handle with
  | none => return tag.suffix
  | some handle =>
    let standard := [("!", "!"), ("!!", standardTypes)]
    match ((← get).handles ++ standard).lookup handle with
    | some start => return start ++ tag.suffix
    | none => throw .malformed

/-- The name and the type in front of a node, in either order. -/
def properties : Reader Properties := do
  let (anchor, tag) ← match ← anchor? with
    | some name => pure (some name, ← tag?)
    | none => match ← tag? with
      | some tag => pure (← anchor?, some tag)
      | none => pure (none, none)
  return { anchor, type := ← tag.mapM fullName }

/-- Gives a node its name. A name is given once. -/
def giveName (ps : Properties) : Reader Unit := do
  match ps.anchor with
  | none => return
  | some name =>
    if (← get).names.contains name then throw .malformed
    modify fun s => { s with names := name :: s.names }

/-- The lines that start with a percent sign. The version is stated at most once, and so is what a
handle stands for. The number bounds the lines. -/
def directives (versionAllowed : Bool) : Nat → Reader Unit
  | 0 => throw .malformed
  | fuel + 1 => do
    match ← peek with
    | some (.version supported) =>
      if !versionAllowed || !supported then throw .malformed
      advance
      directives false fuel
    | some (.handle handle fullName) =>
      if ((← get).handles.lookup handle).isSome then throw .malformed
      advance
      modify fun s => { s with handles := s.handles ++ [(handle, fullName)] }
      directives versionAllowed fuel
    | some .directive =>
      advance
      directives versionAllowed fuel
    | _ => return

end Reader

open Reader

namespace Tree

/-- The scalar that stands where nothing is written. -/
def empty : Tree := .scalar {} true ""

/-- Opens a list or a mapping: its name counts from now on, and there must be room for it. -/
def enter {α : Type} (ps : Properties) (room : Nat) (inside : Nat → Reader α) : Reader α := do
  giveName ps
  match room with
  | 0 => throw (.beyond .depth)
  | room + 1 => inside room

/-- A scalar, with its name given. -/
def leaf (ps : Properties) (plain : Bool) (text : String) : Reader Tree := do
  giveName ps
  return .scalar ps plain text

mutual

/-- A node. Outside of brackets it may be a block. In the value of a mapping the items of a list may
stand without a block of their own. -/
def node (block items : Bool) (room : Nat) : Nat → Reader Tree
  | 0 => throw .malformed
  | fuel + 1 => do
    match ← peek with
    | some (.alias name) =>
      advance
      if (← get).names.contains name then return .alias name else throw .malformed
    | _ =>
      let ps ← properties
      match ← peek, block, items with
      | some .item, _, true => list ps <$> enter ps room fun room => openItems room fuel
      | some (.scalar plain text), _, _ =>
        advance
        leaf ps plain text
      | some .flowList, _, _ =>
        advance
        list ps <$> enter ps room fun room => flowItems true room fuel
      | some .flowMap, _, _ =>
        advance
        map ps <$> enter ps room fun room => flowMembers true room fuel
      | some .blockList, true, _ =>
        advance
        list ps <$> enter ps room fun room => blockItems room fuel
      | some .blockMap, true, _ =>
        advance
        map ps <$> enter ps room fun room => blockMembers room fuel
      | _, _, _ =>
        if ps.anchor.isSome || ps.type.isSome then leaf ps true "" else throw .malformed
termination_by structural fuel => fuel

/-- A node, or nothing if one of some tokens comes next. -/
def nodeUnless (stops : List Token) (block items : Bool) (room : Nat) : Nat → Reader Tree
  | 0 => throw .malformed
  | fuel + 1 => do if ← comesNext stops then return empty else node block items room fuel
termination_by structural fuel => fuel

/-- The items of a block list and its end. -/
def blockItems (room : Nat) : Nat → Reader (List Tree)
  | 0 => throw .malformed
  | fuel + 1 => do
    if ← accept .item then
      let t ← nodeUnless [.item, .blockEnd] true false room fuel
      return t :: (← blockItems room fuel)
    else if ← accept .blockEnd then return []
    else throw .malformed
termination_by structural fuel => fuel

/-- The items of a list that has no block of its own. -/
def openItems (room : Nat) : Nat → Reader (List Tree)
  | 0 => throw .malformed
  | fuel + 1 => do
    if ← accept .item then
      let t ← nodeUnless [.item, .key, .value, .blockEnd] true false room fuel
      return t :: (← openItems room fuel)
    else return []
termination_by structural fuel => fuel

/-- The value of a member, if a value comes next. -/
def memberValue (stops : List Token) (block items : Bool) (room : Nat) : Nat → Reader Tree
  | 0 => throw .malformed
  | fuel + 1 => do
    if ← accept .value then nodeUnless stops block items room fuel else return empty
termination_by structural fuel => fuel

/-- The members of a block mapping and its end. -/
def blockMembers (room : Nat) : Nat → Reader (List (Tree × Tree))
  | 0 => throw .malformed
  | fuel + 1 => do
    if ← accept .key then
      let k ← nodeUnless [.key, .value, .blockEnd] true true room fuel
      let v ← memberValue [.key, .value, .blockEnd] true true room fuel
      return (k, v) :: (← blockMembers room fuel)
    else if ← accept .blockEnd then return []
    else throw .malformed
termination_by structural fuel => fuel

/-- The items of a list in brackets and its end. A comma stands before every item but the first. An
item that is a single member is a mapping. -/
def flowItems (first : Bool) (room : Nat) : Nat → Reader (List Tree)
  | 0 => throw .malformed
  | fuel + 1 => do
    if ← accept .flowListEnd then return []
    else if first then flowItemsFrom room fuel
    else if ← accept .comma then
      if ← accept .flowListEnd then return [] else flowItemsFrom room fuel
    else throw .malformed
termination_by structural fuel => fuel

/-- The items of a list in brackets, where one of them comes next. -/
def flowItemsFrom (room : Nat) : Nat → Reader (List Tree)
  | 0 => throw .malformed
  | fuel + 1 => do
    if ← comesNext [.key] then
      let member ← enter {} room fun room => do
        advance
        let k ← nodeUnless [.value, .comma, .flowListEnd] false false room fuel
        return (k, ← memberValue [.comma, .flowListEnd] false false room fuel)
      return map {} [member] :: (← flowItems false room fuel)
    else
      let t ← node false false room fuel
      return t :: (← flowItems false room fuel)
termination_by structural fuel => fuel

/-- The members of a mapping in braces and its end. A comma stands before every member but the
first. A member may lack its value. -/
def flowMembers (first : Bool) (room : Nat) : Nat → Reader (List (Tree × Tree))
  | 0 => throw .malformed
  | fuel + 1 => do
    if ← accept .flowMapEnd then return []
    else if first then flowMembersFrom room fuel
    else if ← accept .comma then
      if ← accept .flowMapEnd then return [] else flowMembersFrom room fuel
    else throw .malformed
termination_by structural fuel => fuel

/-- The members of a mapping in braces, where one of them comes next. -/
def flowMembersFrom (room : Nat) : Nat → Reader (List (Tree × Tree))
  | 0 => throw .malformed
  | fuel + 1 => do
    if ← accept .key then
      let k ← nodeUnless [.value, .comma, .flowMapEnd] false false room fuel
      let v ← memberValue [.comma, .flowMapEnd] false false room fuel
      return (k, v) :: (← flowMembers false room fuel)
    else
      let k ← node false false room fuel
      return (k, empty) :: (← flowMembers false room fuel)
termination_by structural fuel => fuel

end

/-- Does a line with a percent sign or the mark before a document come next? -/
def startsDocument : Reader Bool := do
  match ← peek with
  | some (.version _) | some (.handle _ _) | some .directive | some .documentStart => return true
  | _ => return false

/-- What stands before a document: directives, then its mark. -/
def heading (fuel : Nat) : Reader Unit := do
  modify fun s => { s with handles := [] }
  directives true fuel
  if !(← accept .documentStart) then throw .malformed

/-- The root of the document that comes next, if there is a document. -/
def root (room fuel : Nat) : Reader (Option Tree) := do
  if (← peek).isNone then return none
  else if ← startsDocument then
    heading fuel
    if (← peek).isNone || (← comesNext [.documentEnd]) || (← startsDocument) then
      return some empty
    else some <$> node true false room fuel
  else some <$> node true false room fuel

/-- Passes over the marks after a document. The number bounds the marks. -/
def skipEnds : Nat → Reader Unit
  | 0 => return
  | fuel + 1 => do if ← accept .documentEnd then skipEnds fuel

/-- The single document, and nothing after it. -/
def single (room fuel : Nat) : Reader (Option Tree) := do
  let tree ← root room fuel
  skipEnds fuel
  if (← peek).isNone then return tree
  else
    heading fuel
    throw .malformed

/-- The tree of the single document in some tokens; none in it if there is no document. -/
def ofTokens (tokens : List Token) : Except Fault (Option Tree) :=
  ((single Limit.yamlDepth (4 * tokens.length + 8)).run { tokens }).map (·.1)

end Tree

end ClientGen.Yaml
