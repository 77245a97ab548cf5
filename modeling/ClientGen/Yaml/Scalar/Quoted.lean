import ClientGen.Number.Hexadecimal
import ClientGen.Yaml.Fault
import ClientGen.Yaml.Scalar.Plain

/-!
# Quoted scalars

Texts between single or double quotes. A line end between the quotes folds as in a plain scalar.

* `QuoteStyle`: the two kinds of quotes.
* `escape`: what stands after a backslash between double quotes.
* `Cursor.quotedScalar`: a whole quoted scalar.
-/

namespace ClientGen.Yaml

/-- The two kinds of quotes. -/
inductive QuoteStyle where
  /-- The quote itself is written twice; there are no escapes. -/
  | single
  /-- A backslash starts an escape. -/
  | double
deriving DecidableEq, Repr

/-- The quote that ends a scalar. -/
def QuoteStyle.mark : QuoteStyle → Char
  | .single => '\''
  | .double => '"'

/-- Escapes of one character and what they stand for. -/
def simpleEscapes : List (Char × Char) :=
  [('0', '\x00'), ('a', '\x07'), ('b', '\x08'), ('t', '\t'), ('\t', '\t'), ('n', '\n'),
    ('v', '\x0b'), ('f', '\x0c'), ('r', '\r'), ('e', '\x1b'), (' ', ' '), ('"', '"'),
    ('\\', '\\'), ('/', '/'), ('N', '\x85'), ('_', '\xa0'), ('L', '\u2028'), ('P', '\u2029')]

/-- Escapes by code, and the number of their digits. -/
def codeEscapes : List (Char × Nat) := [('x', 2), ('u', 4), ('U', 8)]

/-- The code written by the next digits. -/
def codeAt? (c : Cursor) (digits : Nat) : Option Nat :=
  if (c.rest.take digits).length = digits then Hexadecimal.number? (c.rest.take digits) else none

/-- The first code that is too large for any set of characters. -/
def tooLargeCode : Nat := 0x80000000

/-- The second half of a surrogate pair, if an escape for one comes next. -/
def lowAt? (c : Cursor) : Option Nat :=
  if c.peek = some '\\' && c.peekAt 1 = some 'u' then
    (codeAt? (c.skip 2) 4).filter Surrogate.isLow
  else none

/-- A character by its code, and the place after it. Two codes of a surrogate pair stand for one
character, and half of a pair for the replacement character. -/
def codeEscape (c : Cursor) (digits : Nat) : Except Fault (Char × Cursor) := do
  let n ← orMalformed (codeAt? c digits)
  let after := c.skip digits
  if n.isValidChar then return (Char.ofNat n, after)
  else if tooLargeCode ≤ n then throw .tooLarge
  else if 0x10ffff < n then throw .character
  else match Surrogate.isHigh n, lowAt? after with
    | true, some low => return (Surrogate.pair n low, after.skip 6)
    | _, _ => return ('\ufffd', after)

/-- Line breaks and the blanks around them. No document mark may come. The number bounds the line
breaks. -/
def quotedBreaks : Nat → Cursor → Except Fault (List Char × Cursor)
  | 0, _ => throw .malformed
  | fuel + 1, c =>
    if c.atMarker then throw .malformed
    else
      match (c.skipWhile fun char => char == ' ' || char == '\t').lineBreak with
      | ([], c) => return ([], c)
      | (chars, c) => do
        let (later, c) ← quotedBreaks fuel c
        return (chars ++ later, c)

/-- Blanks in a quoted scalar, which may go on over lines. The text must not end. -/
def quotedGap (c : Cursor) : Except Fault (List Char × Cursor) := do
  let blanks := c.rest.takeWhile fun char => char == ' ' || char == '\t'
  let c := c.skip blanks.length
  match c.lineBreak with
  | ([], c) => if c.rest.isEmpty then throw .malformed else return (blanks, c)
  | (first, c) =>
    let (more, c) ← quotedBreaks (c.left + 1) c
    return (foldedBreak first more, c)

/-- What an escape stands for, where its backslash has been read. -/
def escape (c : Cursor) : Except Fault (List Char × Cursor) := do
  let char ← orMalformed c.peek
  match simpleEscapes.lookup char, codeEscapes.lookup char with
  | some meaning, _ => return ([meaning], c.next)
  | none, some digits =>
    let (char, c) ← codeEscape c.next digits
    return ([char], c)
  | none, none =>
    match c.lineBreak with
    | ([], _) => throw .malformed
    | (_, c) => quotedBreaks (c.left + 1) c

/-- The next part of a quoted scalar: an escape, a gap or a character. -/
def quotedPart (style : QuoteStyle) (c : Cursor) : Except Fault (List Char × Cursor) :=
  match style, c.rest with
  | _, [] => throw .malformed
  | .single, '\'' :: _ => return (['\''], c.skip 2)
  | .double, '\\' :: _ => escape c.next
  | _, char :: _ => if isGap char then quotedGap c else return ([char], c.next)

/-- Is this the closing quote? Between single quotes a quote written twice is not. -/
def closesQuote (style : QuoteStyle) (c : Cursor) : Bool :=
  c.peek == some style.mark && !(style == .single && c.peekAt 1 == some '\'')

/-- The parts of a quoted scalar up to its closing quote. The number bounds the parts. -/
def quotedParts (style : QuoteStyle) : Nat → Cursor → Except Fault (List Char × Cursor)
  | 0, _ => throw .malformed
  | fuel + 1, c =>
    if closesQuote style c then return ([], c.next)
    else do
      let (part, c) ← quotedPart style c
      let (later, c) ← quotedParts style fuel c
      return (part ++ later, c)

/-- The quoted scalar that comes next, and the place after it. -/
def Cursor.quotedScalar (c : Cursor) (style : QuoteStyle) : Except Fault (List Char × Cursor) :=
  quotedParts style (c.left + 1) c.next

end ClientGen.Yaml
