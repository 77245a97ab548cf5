import ClientGen.Yaml.Cursor

/-!
# Block scalars

Texts over several lines, set off by their indentation.

* `BlockHeader`: what the first line says about the ends of lines and about the indentation.
* `Cursor.blockScalar`: a whole block scalar.
-/

namespace ClientGen.Yaml

/-- What becomes of the line ends behind the last line of text. -/
inductive Chomping where
  /-- All are dropped. -/
  | strip
  /-- One is kept. -/
  | clip
  /-- All are kept. -/
  | keep
deriving DecidableEq, Repr

/-- The first line of a block scalar. -/
structure BlockHeader where
  /-- What becomes of the last line ends. -/
  chomping : Chomping
  /-- How far the text is indented more than what it belongs to, if that is said. -/
  increment : Option Nat

/-- What a sign says about the last line ends. -/
def chompingOf? : Option Char → Option Chomping
  | some '+' => some .keep
  | some '-' => some .strip
  | _ => none

/-- The increment that a digit stands for. -/
def incrementOf? (c : Option Char) : Option Nat :=
  c.bind fun c => if '0' ≤ c && c ≤ '9' then some (c.toNat - 48) else none

/-- The signs of a header, in either order. An increment is at least 1. -/
def blockSigns? (c : Cursor) : Option (BlockHeader × Cursor) :=
  let (header, c) : BlockHeader × Cursor :=
    match chompingOf? c.peek, incrementOf? c.peek with
    | some chomping, _ => match incrementOf? (c.peekAt 1) with
      | some n => (⟨chomping, some n⟩, c.skip 2)
      | none => (⟨chomping, none⟩, c.next)
    | none, some n => match chompingOf? (c.peekAt 1) with
      | some chomping => (⟨chomping, some n⟩, c.skip 2)
      | none => (⟨.clip, some n⟩, c.next)
    | none, none => (⟨.clip, none⟩, c)
  if header.increment ≠ some 0 && spaceOrEnds c.peek then some (header, c) else none

/-- The header line of a block scalar, and the place where its text begins. -/
def blockHeader? (c : Cursor) : Option (BlockHeader × Cursor) := do
  let (header, c) ← blockSigns? c
  let c := c.skipSpaces.skipComment
  if breaksOrEnds c.peek then some (header, c.lineBreak.2) else none

/-- The line ends before the first line of text, and the greatest column that is reached by spaces
on the way. The first number bounds the characters to look at. -/
def leadingBreaks : Nat → Nat → Cursor → List Char × Nat × Cursor
  | 0, widest, c => ([], widest, c)
  | fuel + 1, widest, c =>
    if c.peek = some ' ' then leadingBreaks fuel (max widest c.next.column) c.next
    else
      match c.lineBreak with
      | ([], c) => ([], widest, c)
      | (chars, c) =>
        let (later, widest, c) := leadingBreaks fuel widest c
        (chars ++ later, widest, c)

/-- The place after the spaces up to a column. -/
def skipIndent (indent : Nat) (c : Cursor) : Cursor :=
  c.skip ((c.rest.take (indent - c.column)).takeWhile (· == ' ')).length

/-- The line ends between two lines of text. The number bounds the line ends. -/
def blockBreaks (indent : Nat) : Nat → Cursor → List Char × Cursor
  | 0, c => ([], c)
  | fuel + 1, c =>
    match (skipIndent indent c).lineBreak with
    | ([], c) => ([], c)
    | (chars, c) =>
      let (later, c) := blockBreaks indent fuel c
      (chars ++ later, c)

/-- Does a line of text begin here? -/
def beginsLine (indent : Nat) (c : Cursor) : Bool := c.column == indent && !c.rest.isEmpty

/-- Does a line start further right than its block? -/
def startsBlank (c : Cursor) : Bool := c.peek.any fun char => char == ' ' || char == '\t'

/-- What the end of a line becomes before another line of text: a single line feed between two lines
that are not further indented folds to a space, and is dropped before empty lines. -/
def joiningBreak (folded atEdge : Bool) (lineEnd breaks : List Char) : List Char :=
  if folded && lineEnd = ['\n'] && atEdge then (if breaks.isEmpty then [' '] else []) else lineEnd

/-- The lines of text from some place on, where `breaks` are the line ends before the first of them.
The number bounds the lines. -/
def blockLines (folded : Bool) (chomping : Chomping) (indent : Nat) :
    Nat → List Char → Cursor → List Char × Cursor
  | 0, _, c => ([], c)
  | fuel + 1, breaks, c =>
    let line := c.rest.takeWhile fun char => !isBreak char
    let (lineEnd, after) := (c.skip line.length).lineBreak
    let (later, after) := blockBreaks indent (after.left + 1) after
    if beginsLine indent after then
      let join := joiningBreak folded (!startsBlank c && !startsBlank after) lineEnd later
      let (text, after) := blockLines folded chomping indent fuel later after
      (breaks ++ line ++ join ++ text, after)
    else
      let tail := match chomping with
        | .strip => []
        | .clip => lineEnd
        | .keep => lineEnd ++ later
      (breaks ++ line ++ tail, after)

/-- The block scalar that comes next, in a block that starts at the column `indent`, and the place
after it. -/
def Cursor.blockScalar (c : Cursor) (folded : Bool) (indent : Int) :
    Option (List Char × Cursor) := do
  let (header, c) ← blockHeader? c.next
  let least := max 1 (indent + 1).toNat
  let (breaks, column, c) : List Char × Nat × Cursor := match header.increment with
    | none =>
      let (breaks, widest, c) := leadingBreaks c.left 0 c
      (breaks, max least widest, c)
    | some n =>
      let column := least + n - 1
      let (breaks, c) := blockBreaks column (c.left + 1) c
      (breaks, column, c)
  if beginsLine column c then
    return blockLines folded header.chomping column (c.left + 1) breaks c
  else return (if header.chomping = .keep then breaks else [], c)

end ClientGen.Yaml
