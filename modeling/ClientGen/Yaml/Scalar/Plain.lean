import ClientGen.Yaml.Cursor

/-!
# Plain scalars

Texts without quotes. They end where something else could begin, and may go on over several lines.

* `plainRun`: the characters up to the next gap.
* `plainGap`: what stands between two runs.
* `Cursor.plainScalar`: a whole plain scalar.
-/

namespace ClientGen.Yaml

/-- Characters that end a plain scalar inside brackets. -/
def isFlowIndicator (c : Char) : Bool :=
  c == ',' || c == '?' || c == '[' || c == ']' || c == '{' || c == '}'

/-- Does a colon followed by this end a plain scalar? -/
def endsAfterColon (flow : Bool) (next : Option Char) : Bool :=
  gapOrEnds next
    || (flow && next.any fun c => c == ',' || c == '[' || c == ']' || c == '{' || c == '}')

/-- The characters of a plain scalar up to the next gap. -/
def plainRun (flow : Bool) : List Char → List Char
  | [] => []
  | c :: cs =>
    if isGap c || (c == ':' && endsAfterColon flow cs.head?) || (flow && isFlowIndicator c) then []
    else c :: plainRun flow cs

/-- The text for a line break and the further breaks after it: a single line feed becomes a space,
and of several the first is dropped. -/
def foldedBreak (first more : List Char) : List Char :=
  if first ≠ ['\n'] then first ++ more else if more.isEmpty then [' '] else more

/-- A stretch of text that was read. -/
structure Stretch where
  /-- What the text means. -/
  text : List Char
  /-- The place after it. -/
  after : Cursor
  /-- The stretch ends on another line than the text before it. -/
  broken : Bool

/-- The further line breaks and spaces after a line break; nothing if a document mark comes. The
number bounds the characters to look at. -/
def plainBreaks : Nat → Cursor → Option (List Char) × Cursor
  | 0, c => (some [], c)
  | fuel + 1, c =>
    if c.peek = some ' ' then plainBreaks fuel c.next
    else
      match c.lineBreak with
      | ([], c) => (some [], c)
      | (chars, c) =>
        if c.atMarker then (none, c)
        else
          let (later, c) := plainBreaks fuel c
          (later.map (chars ++ ·), c)

/-- What stands between two runs of a plain scalar. -/
def plainGap (c : Cursor) : Stretch :=
  let spaces := c.rest.takeWhile (· == ' ')
  match (c.skip spaces.length).lineBreak with
  | ([], after) => ⟨spaces, after, false⟩
  | (first, after) =>
    if after.atMarker then ⟨[], after, true⟩
    else
      let (more, after) := plainBreaks after.left after
      ⟨(more.map (foldedBreak first)).getD [], after, true⟩

/-- The runs of a plain scalar from some place on, where `gap` stands before them; `broken` says
that it ends a line. A line that starts left of the column `indent` does not belong to the scalar.
The number bounds the runs. -/
def plainRuns (flow : Bool) (indent : Int) : Nat → List Char → Cursor → Bool → Stretch
  | 0, _, c, broken => ⟨[], c, broken⟩
  | fuel + 1, gap, c, broken =>
    let run := if c.peek = some '#' then [] else plainRun flow c.rest
    if run.isEmpty then ⟨[], c, broken⟩
    else
      let between := plainGap (c.skip run.length)
      let text := gap ++ run
      if between.text.isEmpty || between.after.peek = some '#'
          || (!flow && between.after.column < indent) then { between with text }
      else
        let later := plainRuns flow indent fuel between.text between.after between.broken
        { later with text := text ++ later.text }

/-- The plain scalar that comes next. -/
def Cursor.plainScalar (c : Cursor) (flow : Bool) (indent : Int) : Stretch :=
  plainRuns flow indent (c.left + 1) [] c false

end ClientGen.Yaml
