import ClientGen.Yaml.Scalar.Block
import ClientGen.Yaml.Scalar.Plain
import ClientGen.Yaml.Tag

/-!
# YAML tokens

The parts of a YAML text. Indentation becomes tokens of its own, and a key that is only known to be
one when its colon is found gets its mark in front.

* `Token`: the parts.
* `Lexer`: a place in the text with what decides how the text goes on.
* `Token.ofText`: the tokens of a text.
-/

namespace ClientGen.Yaml

/-- A part of a YAML text. -/
inductive Token where
  /-- A line that states the version of YAML, and whether that is a version that is read. -/
  | version (supported : Bool)
  /-- A line that states what a handle of types stands for. -/
  | handle (handle fullName : String)
  /-- Any other line that starts with a percent sign. -/
  | directive
  /-- The mark before a document. -/
  | documentStart
  /-- The mark after a document. -/
  | documentEnd
  /-- The lines of a list begin. -/
  | blockList
  /-- The lines of a mapping begin. -/
  | blockMap
  /-- The lines of a list or a mapping end. -/
  | blockEnd
  /-- A list in brackets begins. -/
  | flowList
  /-- A list in brackets ends. -/
  | flowListEnd
  /-- A mapping in braces begins. -/
  | flowMap
  /-- A mapping in braces ends. -/
  | flowMapEnd
  /-- The hyphen before an item. -/
  | item
  /-- The comma after an item in brackets or braces. -/
  | comma
  /-- A key comes next. -/
  | key
  /-- A value comes next. -/
  | value
  /-- A repetition of a node by its name. -/
  | alias (name : String)
  /-- A name for the node that comes next. -/
  | anchor (name : String)
  /-- A type for the node that comes next. -/
  | tag (tag : Tag)
  /-- A scalar, written without quotes or in some other way. -/
  | scalar (plain : Bool) (text : String)
  /-- From here on the text cannot be taken apart. -/
  | broken (fault : Fault)
deriving DecidableEq, Repr

/-- A place where a key may have begun. -/
structure KeyPlace where
  /-- The number of tokens before. -/
  position : Nat
  /-- Only a key can stand here. -/
  required : Bool
  /-- The place in the text. -/
  place : Cursor

/-- A place in a YAML text with what decides how the text goes on. -/
structure Lexer where
  /-- The place. -/
  cursor : Cursor
  /-- The tokens so far. -/
  tokens : Array Token := #[]
  /-- The number of open brackets and braces. -/
  depth : Nat := 0
  /-- The column of the innermost block; -1 outside of all. -/
  indent : Int := -1
  /-- The columns of the blocks around it. -/
  outer : List Int := []
  /-- May a key begin here? -/
  keyAllowed : Bool := true
  /-- The places where keys may have begun, by the number of brackets open there. -/
  keys : List (Nat × KeyPlace) := []

/-- A step of the lexer. It ends with a fault where the text goes wrong; the tokens before stay. -/
abbrev Scan := ExceptT Fault (StateM Lexer)

namespace Lexer

/-- The lexer with a token added. -/
def push (s : Lexer) (t : Token) : Lexer := { s with tokens := s.tokens.push t }

/-- The lexer with all blocks closed that start right of a column. The number bounds the blocks. -/
def closeBlocks (column : Int) : Nat → Lexer → Lexer
  | 0, s => s
  | fuel + 1, s =>
    if column < s.indent then
      closeBlocks column fuel
        { s.push .blockEnd with indent := s.outer.headD (-1), outer := s.outer.tail }
    else s

/-- The lexer with all blocks closed that start right of a column. Inside brackets indentation does
not count. -/
def unwind (column : Int) (s : Lexer) : Lexer :=
  if s.depth = 0 then closeBlocks column (s.outer.length + 1) s else s

/-- The lexer with a block opened at a column, unless one is open there; its mark goes before the
token at a position. -/
def openBlock (column : Int) (position : Nat) (mark : Token) (s : Lexer) : Lexer :=
  if s.indent < column then
    { s with
      indent := column, outer := s.indent :: s.outer
      tokens := s.tokens.insertIdxIfInBounds position mark }
  else s

/-- The lexer after some characters. -/
def skip (n : Nat) (s : Lexer) : Lexer := { s with cursor := s.cursor.skip n }

end Lexer

namespace Scan

/-- Goes on only if a condition holds. -/
def require (holds : Bool) : Scan Unit := if holds then pure () else throw .malformed

/-- What is there; if there is nothing, the text is no YAML. -/
def present {α : Type} (found : Option α) : Scan α :=
  match found with
  | some a => pure a
  | none => throw .malformed

/-- Forgets the place where a key may have begun. That is a fault where only a key could stand. -/
def dropKey : Scan Unit := do
  let depth := (← get).depth
  match (← get).keys.lookup depth with
  | some k =>
    require !k.required
    modify fun s => { s with keys := s.keys.filter (·.1 ≠ depth) }
  | none => return

/-- The number of characters that a key may have. -/
def longestKey : Nat := 1024

/-- Is this place too far behind for a key to reach from there to here? -/
def isStale (c : Cursor) (k : KeyPlace) : Bool :=
  k.place.line ≠ c.line || longestKey < c.index - k.place.index

/-- Forgets the places from which no key can reach here. -/
def dropStaleKeys : Scan Unit := do
  let c := (← get).cursor
  require !((← get).keys.any fun k => isStale c k.2 && k.2.required)
  modify fun s => { s with keys := s.keys.filter fun k => !isStale c k.2 }

/-- Remembers that a key may begin here. -/
def saveKey : Scan Unit := do
  let s ← get
  if s.keyAllowed then
    dropKey
    let required := s.depth = 0 && s.indent = s.cursor.column
    modify fun s => { s with keys := (s.depth, ⟨s.tokens.size, required, s.cursor⟩) :: s.keys }

/-- Moves on to the next token, over spaces, comments and line ends. After a line end a key may
begin. The number bounds the lines. -/
def toNextToken : Nat → Lexer → Lexer
  | 0, s => s
  | fuel + 1, s =>
    match s.cursor.skipSpaces.skipComment.lineBreak with
    | ([], c) => { s with cursor := c }
    | (_, c) => toNextToken fuel { s with cursor := c, keyAllowed := s.keyAllowed || s.depth = 0 }

/-- Moves over a byte order mark at the very beginning. -/
def skipMark (s : Lexer) : Lexer :=
  if s.cursor.index = 0 && s.cursor.peek = some '\ufeff' then s.skip 1 else s

/-- Closes all blocks before a document mark or a directive. No key may begin after it. -/
def closeAll : Scan Unit := do
  modify (Lexer.unwind (-1))
  dropKey
  modify fun s => { s with keyAllowed := false }

/-- A mark of three characters. -/
def marker (t : Token) : Scan Unit := do
  closeAll
  modify fun s => (s.skip 3).push t

/-- The version number that a directive states, and the place after it. Versions that start with 1
are read. -/
def versionAhead (c : Cursor) : Option (Token × Cursor) :=
  let c := c.skipSpaces
  let digits := c.rest.takeWhile Char.isDigit
  let after := c.skip digits.length
  let minor := after.next.rest.takeWhile Char.isDigit
  let supported := digits.foldl (fun n d => 10 * n + (d.toNat - 48)) 0 = 1
  if !digits.isEmpty && after.peek = some '.' && !minor.isEmpty
      && spaceOrEnds (after.next.skip minor.length).peek
  then some (.version supported, after.next.skip minor.length) else none

/-- What a directive says about a handle, and the place after it. The handle may be a single
exclamation mark. -/
def handleDirective (c : Cursor) : Option (Token × Cursor) := do
  let c := c.skipSpaces
  let (handle, c) ←
    if c.peek = some '!' && c.peekAt 1 = some ' ' then some ("!", c.next) else handleAhead c
  if c.peek = some ' ' then
    let (fullName, c) ← uriAhead c.skipSpaces
    if spaceOrEnds c.peek then some (.handle handle fullName, c) else none
  else none

/-- What a directive with a name says, and the place after it. -/
def directiveAhead (name : List Char) (c : Cursor) : Option (Token × Cursor) :=
  if name = "YAML".toList then versionAhead c
  else if name = "TAG".toList then handleDirective c
  else some (.directive, c.skipWhile fun char => !isBreak char)

/-- A line that starts with a percent sign, with its end. No key may begin right after it. -/
def directive : Scan Unit := do
  closeAll
  let s ← get
  let c := s.cursor.next
  let name := c.rest.takeWhile isNameChar
  let c := c.skip name.length
  require (!name.isEmpty && spaceOrEnds c.peek)
  let (token, c) ← present (directiveAhead name c)
  let c := c.skipSpaces.skipComment
  require (breaksOrEnds c.peek)
  set ({ s with cursor := c.lineBreak.2 }.push token)

/-- The beginning of a list or mapping in brackets. -/
def openFlow (t : Token) : Scan Unit := do
  saveKey
  modify fun s => { s.skip 1 with depth := s.depth + 1, keyAllowed := true }.push t

/-- The end of a list or mapping in brackets. -/
def closeFlow (t : Token) : Scan Unit := do
  dropKey
  let s ← get
  require (s.depth ≠ 0)
  set ({ s.skip 1 with depth := s.depth - 1, keyAllowed := false }.push t)

/-- A comma. -/
def comma : Scan Unit := do
  dropKey
  modify fun s => { s.skip 1 with keyAllowed := true }.push .comma

/-- The hyphen before an item. -/
def item : Scan Unit := do
  let s ← get
  if s.depth = 0 then
    require s.keyAllowed
    modify (Lexer.openBlock s.cursor.column s.tokens.size .blockList)
  modify fun s => { s with keyAllowed := true }
  dropKey
  modify fun s => (s.skip 1).push .item

/-- The question mark before a key. -/
def key : Scan Unit := do
  let s ← get
  if s.depth = 0 then
    require s.keyAllowed
    modify (Lexer.openBlock s.cursor.column s.tokens.size .blockMap)
  modify fun s => { s with keyAllowed := s.depth = 0 }
  dropKey
  modify fun s => (s.skip 1).push .key

/-- The colon before a value. If a key may have begun earlier, it did. -/
def value : Scan Unit := do
  let s ← get
  match s.keys.lookup s.depth with
  | some k =>
    modify fun s => { s with
      keys := s.keys.filter (·.1 ≠ s.depth)
      tokens := s.tokens.insertIdxIfInBounds k.position .key
      keyAllowed := false }
    if s.depth = 0 then modify (Lexer.openBlock k.place.column k.position .blockMap)
  | none =>
    if s.depth = 0 then
      require s.keyAllowed
      modify (Lexer.openBlock s.cursor.column s.tokens.size .blockMap)
    modify fun s => { s with keyAllowed := s.depth = 0 }
    dropKey
  modify fun s => (s.skip 1).push .value

/-- May this follow the name of an alias or an anchor? -/
def endsName (next : Option Char) : Bool :=
  next.all fun c => isGap c || "?:,]\x7d%@`".contains c

/-- An alias or an anchor. -/
def name (token : String → Token) : Scan Unit := do
  saveKey
  let s ← get
  let c := s.cursor.next
  let name := c.rest.takeWhile isNameChar
  let c := c.skip name.length
  require (!name.isEmpty && endsName c.peek)
  set ({ s with cursor := c, keyAllowed := false }.push (token (String.ofList name)))

/-- The type of a node. -/
def tag : Scan Unit := do
  saveKey
  let s ← get
  let (tag, c) ← present (tagAhead s.cursor)
  require (spaceOrEnds c.peek)
  set ({ s with cursor := c, keyAllowed := false }.push (.tag tag))

/-- A block scalar. -/
def blockScalar (folded : Bool) : Scan Unit := do
  dropKey
  let s ← get
  let (text, c) ← present (s.cursor.blockScalar folded s.indent)
  set ({ s with cursor := c, keyAllowed := true }.push (.scalar false (String.ofList text)))

/-- A quoted scalar. -/
def quotedScalar (style : QuoteStyle) : Scan Unit := do
  saveKey
  let s ← get
  let (text, c) ← MonadExcept.ofExcept (s.cursor.quotedScalar style)
  set ({ s with cursor := c, keyAllowed := false }.push (.scalar false (String.ofList text)))

/-- A plain scalar. A key may begin after it if it ended with its line. -/
def plainScalar : Scan Unit := do
  saveKey
  modify fun s =>
    let text := s.cursor.plainScalar (s.depth ≠ 0) (s.indent + 1)
    { s with cursor := text.after, keyAllowed := text.broken }.push
      (.scalar true (String.ofList text.text))

/-- Characters that cannot start a plain scalar, or only before some others. -/
def isIndicator (c : Char) : Bool := "-?:,[]\x7b\x7d#&*!|>'\"%@`".contains c

/-- Does a plain scalar start here? -/
def startsPlain (s : Lexer) (c : Char) : Bool :=
  (!isGap c && !isIndicator c)
    || (!gapOrEnds (s.cursor.peekAt 1) && (c == '-' || (s.depth = 0 && (c == '?' || c == ':'))))

/-- The token that starts with a character. -/
def token (c : Char) : Scan Unit := do
  let s ← get
  let gapNext := gapOrEnds (s.cursor.peekAt 1)
  let atLineStart := s.cursor.column = 0
  if c = '%' && atLineStart then directive
  else if atLineStart && s.cursor.atThree '-' then marker .documentStart
  else if atLineStart && s.cursor.atThree '.' then marker .documentEnd
  else if c = '[' then openFlow .flowList
  else if c = '{' then openFlow .flowMap
  else if c = ']' then closeFlow .flowListEnd
  else if c = '}' then closeFlow .flowMapEnd
  else if c = ',' then comma
  else if c = '-' && gapNext then item
  else if c = '?' && (s.depth ≠ 0 || gapNext) then key
  else if c = ':' && (s.depth ≠ 0 || gapNext) then value
  else if c = '*' then name .alias
  else if c = '&' then name .anchor
  else if c = '!' then tag
  else if c = '|' && s.depth = 0 then blockScalar false
  else if c = '>' && s.depth = 0 then blockScalar true
  else if c = '\'' then quotedScalar .single
  else if c = '"' then quotedScalar .double
  else
    require (startsPlain s c)
    plainScalar

/-- The end of the text: all blocks are closed. -/
def finish : Scan Unit := do
  modify (Lexer.unwind (-1))
  dropKey

/-- The next tokens. Says whether the text goes on. -/
def next : Scan Bool := do
  modify fun s => toNextToken (s.cursor.left + 1) (skipMark s)
  dropStaleKeys
  modify fun s => s.unwind s.cursor.column
  match (← get).cursor.peek with
  | none =>
    finish
    return false
  | some c =>
    token c
    return true

end Scan

namespace Lexer

/-- The number of tokens that are settled: those before the first place from which a key may still
reach further. Whoever reads tokens one by one has seen these and no others. -/
def settled (s : Lexer) : Nat :=
  let pending := s.keys.filter fun k => k.2.required || !Scan.isStale s.cursor k.2
  pending.foldl (fun n k => min n k.2.position) s.tokens.size

/-- The tokens up to the end of the text, or up to the place where it goes wrong. The number bounds
the tokens. -/
def allTokens : Nat → Lexer → List Token
  | 0, s => s.tokens.toList ++ [.broken .malformed]
  | fuel + 1, s =>
    let settled := s.settled
    match Scan.next.run s with
    | (.error fault, s) => (s.tokens.take settled).toList ++ [.broken fault]
    | (.ok true, s) => allTokens fuel s
    | (.ok false, s) => s.tokens.toList

end Lexer

/-- The tokens of a text. Where it goes wrong they end with the fault. -/
def Token.ofText (text : List Char) : List Token :=
  Lexer.allTokens (text.length + 1) { cursor := .ofText text }

end ClientGen.Yaml
