import ClientGen.Document.Pointer

/-!
# References

A node that has a member `$ref` stands for the node that the pointer there names. Looking up a
pointer is remembered, so that the same pointer is walked once.

* `Session`: what one pass over a document remembers: pointers looked up, declared names, and the
  warnings given.
* `Reference.lookUp`: the object that a pointer names, by way of the memory.
* `Reference.dereference`: the node at the end of a chain of references.
-/

namespace ClientGen

/-- What a pass over a document remembers. -/
structure Session where
  /-- The pointers that were found to name an object, with the object, oldest first. -/
  known : List (String × Fields) := []
  /-- How often a remembered pointer was asked for again. -/
  hits : Nat := 0
  /-- The names of the declarations made so far. -/
  names : List String := []
  /-- The warnings given, oldest first. -/
  warnings : List String := []

namespace Session

/-- Is the pointer remembered? -/
def knows (s : Session) (pointer : String) : Bool := (s.known.lookup pointer).isSome

/-- The session with one more warning. -/
def warn (s : Session) (warning : String) : Session := { s with warnings := s.warnings ++ [warning] }

end Session

/-- The key of the member that makes a node a reference. -/
def refKey : String := "$ref"

namespace Node

mutual

/-- All pointers in a node: the texts under the reference key, anywhere inside it. -/
def pointers : Node → List String
  | .list items => pointersOfItems items
  | .object fields => pointersOfFields fields
  | _ => []

/-- All pointers in the items of a list. -/
def pointersOfItems : List Node → List String
  | [] => []
  | x :: xs => x.pointers ++ pointersOfItems xs

/-- All pointers in the members of an object. -/
def pointersOfFields : List (Key × Node) → List String
  | [] => []
  | (k, v) :: fs =>
    (match k, v with
      | .text name, .text pointer => if name = refKey then [pointer] else []
      | _, _ => []) ++ v.pointers ++ pointersOfFields fs

end

mutual

/-- The number of nodes in a node, itself included. -/
def size : Node → Nat
  | .list items => sizeOfItems items + 1
  | .object fields => sizeOfFields fields + 1
  | _ => 1

/-- The number of nodes in the items of a list. -/
def sizeOfItems : List Node → Nat
  | [] => 0
  | x :: xs => x.size + sizeOfItems xs

/-- The number of nodes in the members of an object. -/
def sizeOfFields : List (Key × Node) → Nat
  | [] => 0
  | (_, v) :: fs => v.size + sizeOfFields fs

end

end Node

namespace Reference

/-- The object that a pointer names. A pointer that was looked up before is answered from memory;
one that names no object is not remembered. -/
def lookUp (document : Node) (pointer : String) : StateM Session (Option Fields) := fun s =>
  match s.known.lookup pointer with
  | some fields => (some fields, { s with hits := s.hits + 1 })
  | none =>
    match Pointer.resolve document pointer with
    | some (.object fields) => (some fields, { s with known := s.known ++ [(pointer, fields)] })
    | _ => (none, s)

/-- Records a warning. -/
def warn (warning : String) : StateM Session Unit := modify (·.warn warning)

/-- The bound on the length of a chain of references that repeats no pointer: every pointer after
the first stands in the document. -/
def chainBound (document : Node) : Nat := document.pointers.length + 2

/-- Follows a chain of references for at most `fuel` steps. The list holds the pointers of the
chain so far. -/
def dereferenceWithin (document : Node) :
    Nat → List String → Node → StateM Session (Option Node)
  | 0, _, _ => pure none
  | fuel + 1, seen, .object fields =>
    match Fields.get? fields refKey with
    | none => pure (some (.object fields))
    | some (.text pointer) =>
      if seen.contains pointer then do
        warn ("Circular $ref chain at " ++ pointer)
        return none
      else do
        match ← lookUp document pointer with
        | none => return none
        | some target => dereferenceWithin document fuel (pointer :: seen) (.object target)
    | some _ => pure none
  | _ + 1, _, node => pure (some node)

/-- The node at the end of the chain of references that starts at a node; none if the chain ends
at a pointer that names no object, at a reference that is no text, or nowhere. -/
def dereference (document node : Node) : StateM Session (Option Node) :=
  dereferenceWithin document (chainBound document) [] node

end Reference

end ClientGen
