import ClientGen.Schema.Declaration
import ClientGen.Failure
import ClientGen.Text.Shown

/-!
# Expanding schemas

A schema is expanded into the declaration of one interface or alias and the declarations that it
needs, which come first. A name is declared at most once in a pass, which also ends the expansion
of schemas that refer to themselves. The depth of nesting is limited.

* `Expansion`: a computation that may fail and keeps the session up to the failure.
* `Expander`: the document and the limit.
* `Expander.follow`: the schema at the end of a chain of references.
* `Expander.merge`: the properties of a schema put together from several.
* `Expander.declare`, `Expander.propertyType`: declarations and types, for the levels that are
  left.
* `Expander.resolve`, `Expander.typeReference`: what the rest of the library calls.
-/

namespace ClientGen

/-- A computation over a session. What the session learned before a failure stays. -/
abbrev Expansion := ExceptT Failure (StateM Session)

/-- Declares a name; false if it was declared before. -/
def Session.claim (name : String) : StateM Session Bool := fun s =>
  if s.names.contains name then (false, s) else (true, { s with names := s.names ++ [name] })

/-- The session with no declared names. -/
def Session.forgetNames (s : Session) : Session := { s with names := [] }

/-- The document that references lead into, and the greatest depth of nesting. -/
structure Expander where
  /-- The document. -/
  document : Node
  /-- The greatest depth of nesting. -/
  limit : Int := 64

/-- The properties of a schema put together from several, and the names it requires. -/
structure Merged where
  /-- The properties, in the order of first mention. -/
  properties : Fields := []
  /-- The required names, each once. -/
  required : List String := []

namespace Merged

/-- Adds the properties and requirements of one more part. -/
def add (m : Merged) (properties : Fields) (required : List String) : Merged :=
  { properties := Fields.update m.properties properties
    required := required.foldl (fun rs r => if rs.contains r then rs else rs ++ [r]) m.required }

end Merged

/-- A type and the declarations that it needs. -/
structure Typed where
  /-- The type. -/
  type : TypeExpr
  /-- The declarations, each after those that it needs. -/
  needs : List Declaration := []

/-- A schema that is to be declared under a name. -/
structure Request where
  /-- The name. -/
  name : String
  /-- The schema that the name is to stand for. -/
  schema : Fields

/-- Where an expansion stands. -/
structure Place where
  /-- The name that declarations are built from. -/
  base : String
  /-- The way to the schema, for messages. -/
  origin : String
  /-- The pointers of the current chain of references, newest first. -/
  chain : List String := []

namespace Place

/-- The place of the `i`-th member of a choice under `key`. -/
def option (p : Place) (key : String) (i : Nat) : Place :=
  { p with base := p.base ++ "Option" ++ toString (i + 1),
           origin := p.origin ++ "/" ++ key ++ "/" ++ toString i }

/-- The place of a property. -/
def property (p : Place) (name : String) : Place :=
  { base := p.base ++ Naming.pascalCase name, origin := p.origin ++ "/properties/" ++ name }

end Place

namespace Expander

/-- Records a warning. -/
def warn (warning : String) : Expansion Unit := fun s => (.ok (), s.warn warning)

/-- Claims a name; false if it was declared before. -/
def claim (name : String) : Expansion Bool := fun s =>
  let (fresh, s) := Session.claim name s
  (.ok fresh, s)

/-- Follows a chain of references for at most `fuel` steps. -/
def followWithin (e : Expander) :
    Nat → Fields → List String → StateM Session (Option Fields × List String)
  | 0, _, chain => pure (none, chain)
  | fuel + 1, schema, chain =>
    match Schema.pointer? schema with
    | none => pure (some schema, chain)
    | some pointer =>
      if chain.contains pointer then do
        Reference.warn ("Circular $ref " ++ pointer)
        return (none, chain)
      else do
        match ← Reference.lookUp e.document pointer with
        | none => return (none, chain)
        | some target => followWithin e fuel target (pointer :: chain)

/-- The schema at the end of the chain of references that starts at a schema, and the chain; none
if a pointer names no object or is already on the chain. -/
def follow (e : Expander) (schema : Fields) (chain : List String) :
    Expansion (Option Fields × List String) := fun s =>
  let (r, s) := e.followWithin (Reference.chainBound e.document) schema chain s
  (.ok r, s)

/-- The names that a schema requires. -/
def requiredNames (schema : Fields) : Expansion (List String) :=
  match Schema.requiredNames schema with
  | some names => pure names
  | none => throw .notIterable

/-- The member that lists the parts of a schema put together from several. -/
def allOfKey : String := "allOf"

/-- The parts that are listed in a schema, behind their references. Parts that lead nowhere are left
out with a warning. -/
def listedParts (e : Expander) (chain : List String) :
    List Fields → Expansion (List (Fields × List String))
  | [] => pure []
  | member :: rest => do
    match ← e.follow member chain with
    | (some part, partChain) => return (part, partChain) :: (← listedParts e chain rest)
    | (none, _) => do
      warn ("Skipping unresolvable allOf member " ++ (Schema.pointer? member).getD "")
      listedParts e chain rest

/-- The parts of a schema put together from several: those listed, and last its own members. -/
def parts (e : Expander) (schema : Fields) (chain : List String) :
    Expansion (List (Fields × List String)) := do
  let listed ← e.listedParts chain (Schema.members schema allOfKey)
  return listed ++ [(schema.filter fun f => !f.1.same (.text allOfKey), chain)]

/-- The properties and requirements of a schema put together from several, for at most `fuel`
levels of parts within parts. -/
def mergeWithin (e : Expander) : Nat → Fields → List String → Expansion Merged
  | 0, _, _ => pure {}
  | fuel + 1, schema, chain => do
    (← e.parts schema chain).foldlM (fun merged part => do
      if Schema.kind part.1 = .allOf then
        let inner ← mergeWithin e fuel part.1 part.2
        return merged.add inner.properties inner.required
      else
        let required ← requiredNames part.1
        return merged.add (Schema.fieldsUnder part.1 "properties") required) {}

/-- The bound on the levels of parts within parts: each goes down in a node or one step further on
a chain of references. -/
def mergeBound (e : Expander) (schema : Fields) : Nat :=
  (Reference.chainBound e.document + 1) * (e.document.size + (Node.object schema).size + 1)

/-- The properties and requirements of a schema put together from several. -/
def merge (e : Expander) (schema : Fields) (chain : List String) : Expansion Merged :=
  e.mergeWithin (e.mergeBound schema) schema chain

/-- The type of the values that a list schema enumerates. -/
def valuesType (schema : Fields) : TypeExpr :=
  let values := ((Fields.get? schema "enum").bind Node.list?).getD []
  .union (TypeExpr.distinct (values.map fun v => .value (literal v)))

/-- The type of a schema that needs no declaration: a basic type, an open record, or any. A type
word that is not known is reported. -/
def plainType (schema : Fields) (origin : String) : Expansion TypeExpr :=
  match (Schema.typeAndNullability schema).1 with
  | some word =>
    match Schema.primitiveTypes.lookup word with
    | some basic => pure (.basic basic)
    | none =>
      if word = "object" then pure (.record .any)
      else do
        warn ("Unknown schema type " ++ Text.shown word ++ " at " ++ origin
          ++ ", typing it as any")
        return .any
  | none => pure .any

section Parts

variable {m : Type → Type} [Monad m]

/-- The types of the members of a choice, found with the given function, and what they need. -/
def choiceTypes (typeOf : Node → Place → m Typed) (place : Place) (key : String) :
    List Fields → Nat → m (List TypeExpr × List Declaration)
  | [], _ => pure ([], [])
  | member :: rest, i => do
    let head ← typeOf (.object member) (place.option key i)
    let (types, needs) ← choiceTypes typeOf place key rest (i + 1)
    return (head.type :: types, head.needs ++ needs)

/-- The type of a choice and what it needs. -/
def choiceType (typeOf : Node → Place → m Typed) (place : Place) (schema : Fields) :
    m Typed := do
  let (key, members) := Schema.choices schema
  let (types, needs) ← choiceTypes typeOf place key members 0
  return { type := .union (TypeExpr.distinct types), needs }

/-- The properties of an interface, with types found with the given function, and what they
need. -/
def interfaceProperties (typeOf : Node → Place → m Typed) (place : Place)
    (required : List String) : Fields → m (List Property × List Declaration)
  | [] => pure ([], [])
  | (key, schema) :: rest => do
    let name := key.label
    let typed ← typeOf schema (place.property name)
    let property : Property :=
      { name, optional := !required.contains name, type := typed.type
        comment := .ofProperty schema }
    let (properties, needs) ← interfaceProperties typeOf place required rest
    return (property :: properties, typed.needs ++ needs)

/-- An interface with the given properties, after the declarations that it needs. -/
def interface (typeOf : Node → Place → m Typed) (name : String) (comment : DocComment)
    (place : Place) (properties : Fields) (required : List String) : m (List Declaration) := do
  let (properties, needs) ← interfaceProperties typeOf place required properties
  return needs ++ [{ name, body := .properties properties, comment, origin := place.origin }]

/-- The interface that allows every key, for a schema that says no more. -/
def openInterface (r : Request) (place : Place) : Declaration :=
  { name := r.name, body := .anything, comment := .ofSchema r.schema, origin := place.origin }

/-- The declaration of a claimed name for a schema of a kind that is no reference and no list. -/
def body [MonadLiftT Expansion m] (e : Expander) (typeOf : Node → Place → m Typed) (r : Request)
    (kind : Schema.Kind) (place : Place) : m (List Declaration) := do
  let comment := DocComment.ofSchema r.schema
  match kind with
  | .allOf => do
    let merged : Merged ← liftM (e.merge r.schema place.chain)
    if merged.properties.isEmpty then return [openInterface r place]
    else interface typeOf r.name comment place merged.properties merged.required
  | .oneOf => do
    let typed ← choiceType typeOf { place with chain := [] } r.schema
    return typed.needs
      ++ [{ name := r.name, body := .alias typed.type, comment, origin := place.origin }]
  | .object => do
    let required : List String ← liftM (requiredNames r.schema)
    interface typeOf r.name comment place (Schema.fieldsUnder r.schema "properties") required
  | _ => return [openInterface r place]

/-- One level of declaring a schema: `again` declares a schema that stands for it one level down,
`typeOf` types what is inside it, and `once` sees to it that a name is declared only once. -/
def declareStep [MonadLiftT Expansion m] (e : Expander)
    (once : Request → m (List Declaration) → m (List Declaration))
    (again : Fields → Place → m (List Declaration)) (typeOf : Node → Place → m Typed)
    (schema : Fields) (suffix : String) (place : Place) : m (List Declaration) := do
  let r : Request := { name := Naming.interfaceName place.base suffix, schema }
  match Schema.kind schema with
  | .reference =>
    match ← (liftM (e.follow schema place.chain) : m (Option Fields × List String)) with
    | (some target, chain) => again target { place with origin := chain.headD "", chain }
    | (none, _) => do
      liftM (warn ("Cannot resolve " ++ (Schema.pointer? schema).getD "" ++ " for " ++ r.name
        ++ ", emitting an open type"))
      once r (pure [openInterface r place])
  | .array => again (Schema.items schema) { place with origin := place.origin ++ "/items" }
  | kind => once r (e.body typeOf r kind place)

/-- One level of typing a property: `declared` declares a schema that gets a name of its own, and
`typeOf` types what is inside the schema or stands for it. -/
def typeStep [MonadLiftT Expansion m] (e : Expander)
    (declared : Fields → Place → m (List Declaration)) (typeOf : Node → Place → m Typed)
    (schema : Fields) (place : Place) : m Typed := do
  match Schema.kind schema with
  | .reference => do
    let pointer := (Schema.pointer? schema).getD ""
    match ← (liftM (e.follow schema place.chain) : m (Option Fields × List String)) with
    | (none, _) => do
      liftM (warn ("Cannot resolve " ++ pointer ++ " at " ++ place.origin
        ++ ", typing it as any"))
      return { type := .any }
    | (some target, chain) =>
      if (Schema.kind target).isStructural then do
        let base := Pointer.lastName pointer
        let needs ← declared target { base, origin := pointer, chain }
        return { type := .named (Naming.interfaceName base ""), needs }
      else typeOf (.object target) { place with origin := pointer, chain }
  | .object | .allOf => do
    let needs ← declared schema place
    return { type := .named (Naming.interfaceName place.base ""), needs }
  | .oneOf => choiceType typeOf place schema
  | .enumeration => return { type := valuesType schema }
  | .array => do
    let item ← typeOf (.object (Schema.items schema))
      { place with base := place.base ++ "Item", origin := place.origin ++ "/items" }
    return { item with type := .array item.type }
  | .map => do
    match Fields.get? schema "additionalProperties" with
    | some (.object (f :: fs)) => do
      let value ← typeOf (.object (f :: fs))
        { place with base := place.base ++ "Value",
                     origin := place.origin ++ "/additionalProperties" }
      return { value with type := .record value.type }
    | _ => return { type := .record .any }
  | .primitive | .unknown => do
    let type : TypeExpr ← liftM (plainType schema place.origin)
    return { type }

end Parts

/-- A type found for a schema, with null allowed besides if the schema says so. -/
def orNullFor (schema : Fields) (typed : Typed) : Typed :=
  if (Schema.typeAndNullability schema).2 then { typed with type := typed.type.orNull } else typed

/-- The declarations of a requested name, if it is free. It is claimed before anything inside the
schema is looked at. -/
def once (r : Request) (declarations : Expansion (List Declaration)) :
    Expansion (List Declaration) := do
  if ← claim r.name then declarations else return []

mutual

/-- The declarations for a schema under the interface name of base and suffix, with `left` levels
of nesting left. No declaration comes back if the name was declared before. -/
def declare (e : Expander) : Nat → Fields → String → Place → Expansion (List Declaration)
  | 0, _, _, place => throw (.tooDeep place.origin e.limit)
  | left + 1, schema, suffix, place =>
    e.declareStep once (fun target place => declare e left target suffix place)
      (propertyType e left) schema suffix place

/-- The type of a property, with `left` levels of nesting left, and the declarations it needs. -/
def propertyType (e : Expander) : Nat → Node → Place → Expansion Typed
  | 0, _, place => throw (.tooDeep place.origin e.limit)
  | _ + 1, .null, _ | _ + 1, .bool _, _ | _ + 1, .int _, _ | _ + 1, .real _, _
  | _ + 1, .text _, _ | _ + 1, .list _, _ => pure { type := .any }
  | left + 1, .object schema, place =>
    orNullFor schema <$> e.typeStep (fun target place => declare e left target "" place)
      (propertyType e left) schema place

end

/-- The number of levels that the limit allows. -/
def levels (e : Expander) : Nat := (e.limit + 1).toNat

/-- The declarations for a node under the interface name of base and suffix. A node that is no
object claims the name and then fails, since it has no description. -/
def resolve (e : Expander) (node : Node) (base suffix origin : String) :
    Expansion (List Declaration) :=
  match node with
  | .object schema => e.declare e.levels schema suffix { base, origin }
  | _ =>
    if e.levels = 0 then throw (.tooDeep origin e.limit)
    else do
      if ← claim (Naming.interfaceName base suffix) then throw .notAnObject else return []

end Expander

/-- The type by which other files refer to a declared schema: a name, possibly in lists. -/
structure TypeReference where
  /-- The interface name. -/
  name : String
  /-- How many lists the schema is wrapped in. -/
  lists : Nat
deriving DecidableEq, Repr

/-- The text of a reference to a type. -/
def TypeReference.text (t : TypeReference) : String :=
  t.name ++ String.join (List.replicate t.lists "[]")

namespace Expander

/-- The number of lists around a schema, behind its references, for at most `fuel` steps. -/
def listsWithin (e : Expander) : Nat → Fields → List String → Expansion Nat
  | 0, _, _ => pure 0
  | fuel + 1, schema, chain =>
    match Schema.kind schema with
    | .reference => do
      match ← e.follow schema chain with
      | (some target, chain) => listsWithin e fuel target chain
      | (none, _) => return 0
    | .array => do
      let n ← listsWithin e fuel (Schema.items schema) chain
      return n + 1
    | _ => pure 0

/-- The type by which other files refer to the schema in a node. -/
def typeReference (e : Expander) (node : Node) (base suffix : String) :
    Expansion TypeReference := do
  let lists ← match node with
    | .object schema => e.listsWithin (e.mergeBound schema) schema []
    | _ => pure 0
  return { name := Naming.interfaceName base suffix, lists }

end Expander

end ClientGen
