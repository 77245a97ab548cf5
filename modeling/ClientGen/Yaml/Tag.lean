import ClientGen.Text.Letter
import ClientGen.Yaml.Scalar.Quoted

/-!
# YAML tags

How the type of a node is written: a handle, which stands for the beginning of a name, and the rest
of the name, in which characters may be escaped.

* `Tag`: a type as it is written.
* `uriAhead`, `handleAhead`, `tagAhead`: reading the parts and the whole.
-/

namespace ClientGen.Yaml

/-- How the type of a node is written: a handle and the rest. -/
structure Tag where
  /-- The part up to the second exclamation mark; none in a verbatim tag. -/
  handle : Option String
  /-- The rest. -/
  suffix : String
deriving DecidableEq, Repr

/-- Letters, digits, hyphens and underscores. -/
def isNameChar (c : Char) : Bool :=
  ('0' ≤ c && c ≤ '9') || ('A' ≤ c && c ≤ 'Z') || ('a' ≤ c && c ≤ 'z')
    || c == '-' || c == '_'

/-- Characters that the names of types are made of. A percent sign starts an escape. -/
def isUriChar (c : Char) : Bool :=
  Text.isAsciiAlphanumeric c || "-;/?:@&=+$,_.!~*'()[]%".contains c

/-- The bytes that some escapes stand for, and the place after them: two digits of base 16 after
each percent sign. The number bounds the escapes. -/
def uriBytes : Nat → Cursor → Option (List UInt8 × Cursor)
  | 0, _ => none
  | fuel + 1, c =>
    if c.peek = some '%' then do
      let n ← codeAt? c.next 2
      let (later, c) ← uriBytes fuel (c.skip 3)
      return (n.toUInt8 :: later, c)
    else some ([], c)

/-- The name of a type that comes next, and the place after it. Escapes stand for the bytes of
characters. The number bounds the stretches between escapes. -/
def uriParts : Nat → Cursor → Option (List Char × Cursor)
  | 0, _ => none
  | fuel + 1, c => do
    let stretch := c.rest.takeWhile fun char => isUriChar char && char != '%'
    let c := c.skip stretch.length
    if c.peek = some '%' then
      let (bytes, c) ← uriBytes (c.left + 1) c
      let chars ← String.fromUTF8? ⟨bytes.toArray⟩
      let (later, c) ← uriParts fuel c
      return (stretch ++ chars.toList ++ later, c)
    else return (stretch, c)

/-- The name of a type that comes next, and the place after it. It has at least one character. -/
def uriAhead (c : Cursor) : Option (String × Cursor) :=
  if c.peek.any isUriChar then
    (uriParts (c.left + 1) c).map fun (chars, c) => (String.ofList chars, c)
  else none

/-- The handle that comes next, and the place after it: what stands between two exclamation
marks. -/
def handleAhead (c : Cursor) : Option (String × Cursor) :=
  let name := c.next.rest.takeWhile isNameChar
  let after := c.skip (name.length + 1)
  if c.peek = some '!' && after.peek = some '!' then
    some ("!" ++ String.ofList name ++ "!", after.next)
  else none

/-- The tag that comes next, and the place after it. -/
def tagAhead (c : Cursor) : Option (Tag × Cursor) :=
  let rest := c.next.rest
  if gapOrEnds rest.head? then some (⟨none, "!"⟩, c.next)
  else if rest.head? = some '<' then do
    let (suffix, c) ← uriAhead (c.skip 2)
    if c.peek = some '>' then some (⟨none, suffix⟩, c.next) else none
  else if (rest.takeWhile fun char => char != ' ' && !isBreak char).contains '!' then do
    let (handle, c) ← handleAhead c
    let (suffix, c) ← uriAhead c
    return (⟨some handle, suffix⟩, c)
  else do
    let (suffix, c) ← uriAhead c.next
    return (⟨some "!", suffix⟩, c)

end ClientGen.Yaml
