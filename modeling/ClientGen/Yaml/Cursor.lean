/-!
# Places in a YAML text

YAML is read with an eye on columns and lines.

* `Cursor`: a place in a text.
* `Cursor.next`, `Cursor.skip`, `Cursor.lineBreak`: moving on.
* `Cursor.atMarker`: a place where a document begins or ends.
-/

namespace ClientGen.Yaml

/-- A place in a text. -/
structure Cursor where
  /-- The text from here on. -/
  rest : List Char
  /-- The number of characters from here on. -/
  left : Nat
  /-- The number of characters before. -/
  index : Nat
  /-- The number of lines before. -/
  line : Nat
  /-- The number of characters before on the same line. -/
  column : Nat

/-- Does a line end at this character? -/
def isBreak (c : Char) : Bool :=
  c == '\n' || c == '\r' || c == '\x85' || c == '\u2028' || c == '\u2029'

/-- A space, a tab or a line end. -/
def isGap (c : Char) : Bool := c == ' ' || c == '\t' || isBreak c

/-- Is there a line end, or nothing more? -/
def breaksOrEnds (next : Option Char) : Bool := next.all isBreak

/-- Is there a gap, or nothing more? -/
def gapOrEnds (next : Option Char) : Bool := next.all isGap

/-- Is there a space, a line end, or nothing more? A tab is none of these. -/
def spaceOrEnds (next : Option Char) : Bool := next.all fun c => c == ' ' || isBreak c

namespace Cursor

/-- The beginning of a text. -/
def ofText (text : List Char) : Cursor := ⟨text, text.length, 0, 0, 0⟩

/-- The next character. -/
def peek (c : Cursor) : Option Char := c.rest.head?

/-- The character that comes some characters later. -/
def peekAt (c : Cursor) (n : Nat) : Option Char := c.rest[n]?

/-- The place after one more character. The first character of the pair `\r\n` ends no line, and
byte order marks take no column. -/
def next (c : Cursor) : Cursor :=
  match c.rest with
  | [] => c
  | '\r' :: '\n' :: rest =>
    { c with
      rest := '\n' :: rest, left := c.left - 1, index := c.index + 1, column := c.column + 1 }
  | char :: rest =>
    if isBreak char then ⟨rest, c.left - 1, c.index + 1, c.line + 1, 0⟩
    else
      { c with
        rest, left := c.left - 1, index := c.index + 1
        column := if char = '\ufeff' then c.column else c.column + 1 }

/-- The place after some more characters. -/
def skip (c : Cursor) : Nat → Cursor
  | 0 => c
  | n + 1 => c.next.skip n

/-- The place after all characters of a class that come next. -/
def skipWhile (c : Cursor) (p : Char → Bool) : Cursor := c.skip (c.rest.takeWhile p).length

/-- The place after the spaces that come next. -/
def skipSpaces (c : Cursor) : Cursor := c.skipWhile (· == ' ')

/-- The place after a comment that comes next. -/
def skipComment (c : Cursor) : Cursor :=
  if c.peek = some '#' then c.skipWhile fun char => !isBreak char else c

/-- The text of a line end that comes next, and the place after it. All line ends but the two
separators of Unicode count as `\n`. -/
def lineBreak (c : Cursor) : List Char × Cursor :=
  match c.rest with
  | '\r' :: '\n' :: _ => (['\n'], c.skip 2)
  | char :: _ =>
    if char == '\u2028' || char == '\u2029' then ([char], c.next)
    else if isBreak char then (['\n'], c.next)
    else ([], c)
  | [] => ([], c)

/-- Do three of one character and a gap come next? -/
def atThree (c : Cursor) (char : Char) : Bool :=
  match c.rest with
  | x :: y :: z :: rest => x == char && y == char && z == char && gapOrEnds rest.head?
  | _ => false

/-- Does a mark come next that begins or ends a document? -/
def atMarker (c : Cursor) : Bool := c.atThree '-' || c.atThree '.'

end Cursor

end ClientGen.Yaml
