import ClientGen.Text.Blank
import ClientGen.Text.Letter
import ClientGen.Text.Lines
import ClientGen.Text.Match
import ClientGen.Naming.Names

/-!
# Reading module texts

What the text of a model file declares and imports. The text may have been edited by hand, so it
is recognised line by line and not parsed.

* `ModuleText.declaredNames`, `ModuleText.importedNames`: the names of a text.
* `ModuleText.typeImports`: its import lines.
* `ModuleText.blocks`: the pieces between blank lines.
-/

namespace ClientGen.ModuleText

open Text

/-- The blanks that a line may end with. -/
def isLineBlank (c : Char) : Bool := c = ' ' || c = '\t'

/-- A letter, digit or underscore of any script, or a dollar sign. -/
def isNamePart (c : Char) : Bool := isWordChar c || c == '$'

/-- The name after a keyword and blanks. -/
def nameAfter? (keyword : String) (cs : List Char) : Option (List Char × List Char) := do
  let cs ← skipWord? keyword.toList cs
  match ← skipSome? isBlank cs with
  | c :: cs =>
    if Naming.isIdentifierStart c then
      return (c :: cs.takeWhile isNamePart, cs.dropWhile isNamePart)
    else none
  | [] => none

/-- An exported interface or type alias: its name. -/
def declaration? : Recogniser (List Char) := fun cs => do
  let cs ← skipSome? isBlank (← skipWord? "export".toList cs)
  (nameAfter? "interface" cs).orElse fun _ => nameAfter? "type" cs

/-- A line that imports types: the text between the braces, and the module. -/
def typeImport? : Recogniser (List Char × List Char) := fun cs => do
  let cs ← skipSome? isBlank (← skipWord? "import".toList cs)
  let cs ← skipWord? ['{'] (skipAll isBlank (← skipWord? "type".toList cs))
  let names := cs.takeWhile (· ≠ '}')
  let cs ← skipWord? ['}'] (cs.dropWhile (· ≠ '}'))
  let cs ← skipWord? "from".toList (skipAll isBlank cs)
  let cs ← skipWord? ['\''] (skipAll isBlank cs)
  let source := cs.takeWhile (· ≠ '\'')
  let cs ← skipWord? ['\''] (cs.dropWhile (· ≠ '\''))
  let cs := skipAll isLineBlank ((skipWord? [';'] cs).getD cs)
  if !source.isEmpty && (cs.isEmpty || cs.head? = some '\n') then
    return ((names, source), cs)
  else none

/-- The names of all exported interfaces and type aliases. -/
def declaredNames (cs : List Char) : List (List Char) := lineMatches declaration? cs

/-- All lines that import types. -/
def typeImports (cs : List Char) : List (List Char × List Char) := lineMatches typeImport? cs

/-- The names in the text between the braces of an import. -/
def listedNames (names : List Char) : List (List Char) :=
  ((splitOn ',' names).map trim).filter fun name => !name.isEmpty

/-- The names of all imported types. -/
def importedNames (cs : List Char) : List (List Char) :=
  (typeImports cs).flatMap fun i => listedNames i.1

/-- The number of characters up to the end of the next line, if it is blank. -/
def blankLineLength? (cs : List Char) : Option Nat :=
  match cs.dropWhile isLineBlank with
  | '\n' :: _ => some ((cs.takeWhile isLineBlank).length + 1)
  | _ => none

/-- The pieces of a text between blank lines. The number counts the characters that still belong to
the blank line read last. -/
def blocksFrom : Nat → List Char → List (List Char)
  | _, [] => [[]]
  | skip + 1, _ :: cs => blocksFrom skip cs
  | 0, c :: cs =>
    match if c = '\n' then blankLineLength? cs else none with
    | some n => [] :: blocksFrom n cs
    | none => consFirst c (blocksFrom 0 cs)

/-- The pieces of a text between blank lines. A line is blank if it holds only spaces and tabs. -/
def blocks (cs : List Char) : List (List Char) := blocksFrom 0 cs

/-- The text before the first blank line, and the text after it if there is one. -/
def firstBlock : List Char → List Char × Option (List Char)
  | [] => ([], none)
  | c :: cs =>
    match if c = '\n' then blankLineLength? cs else none with
    | some n => ([], some (cs.drop n))
    | none =>
      let (first, rest) := firstBlock cs
      (c :: first, rest)

/-- Does a block consist of import lines only? Blank lines do not count, but one line has to be
there. -/
def isImportBlock (block : List Char) : Bool :=
  let ls := (lines block).filter fun line => !(trim line).isEmpty
  !ls.isEmpty && ls.all fun line => (typeImport? line).isSome

end ClientGen.ModuleText
