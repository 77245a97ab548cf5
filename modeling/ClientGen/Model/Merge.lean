import ClientGen.Model.Reading
import ClientGen.Model.Module

/-!
# Merging module texts

A model file that exists already is added to and never taken from. Declarations are told apart by
name alone: one whose name is declared already is left as it is.

* `ModuleText.Additions`: what a new text adds to an existing one.
* `ModuleText.additions`: how it is found.
* `ModuleText.merge`: the existing text with the additions.
-/

namespace ClientGen.ModuleText

open Text

/-- A text without the line feeds around it. -/
def dropLineFeeds (cs : List Char) : List Char :=
  dropEnd (· = '\n') (cs.dropWhile (· = '\n'))

/-- The line that imports some names. -/
def importLine (names : List (List Char)) (source : List Char) : List Char :=
  (ModelSet.importLine (names.map String.ofList) (String.ofList source)).toList

/-- The import lines for the names in `imports` that are not known. A name is imported once. -/
def missingImports (known : List (List Char)) :
    List (List Char × List Char) → List (List Char)
  | [] => []
  | (names, source) :: rest =>
    let missing := (listedNames names).filter fun name => !known.contains name
    if missing.isEmpty then missingImports known rest
    else importLine missing source :: missingImports (known ++ missing) rest

/-- What a new text adds to an existing one. -/
structure Additions where
  /-- The blocks with new declarations. -/
  blocks : List (List Char) := []
  /-- The lines with new imports. -/
  imports : List (List Char) := []

/-- What the blocks of a new text add to the text `old`, of which some names are known to be
declared. A block of imports adds the names that the old text lacks; any other block is added if it
declares something and nothing that is known. -/
def additionsFrom (old : List Char) (known : List (List Char)) : List (List Char) → Additions
  | [] => {}
  | block :: rest =>
    if isImportBlock block then
      let lines := missingImports (importedNames old ++ declaredNames old) (typeImports block)
      let later := additionsFrom old known rest
      { later with imports := lines ++ later.imports }
    else
      let names := declaredNames block
      if names.isEmpty || names.any known.contains then additionsFrom old known rest
      else
        let later := additionsFrom old (known ++ names) rest
        { later with blocks := block :: later.blocks }

/-- What a new text adds to an old one. -/
def additions (old new : List Char) : Additions :=
  additionsFrom old (declaredNames old) (blocks (dropLineFeeds new))

/-- A text with blocks added at its end, after one blank line each. -/
def withBlocks (cs : List Char) (added : List (List Char)) : List Char :=
  if added.isEmpty then cs
  else dropEnd (· = '\n') cs ++ ['\n', '\n'] ++ joined ['\n', '\n'] added ++ ['\n']

/-- A text with import lines added after its leading block of imports, or at its top. -/
def withImports (cs : List Char) (added : List (List Char)) : List Char :=
  if added.isEmpty then cs
  else
    let ls := joined ['\n'] added
    match firstBlock cs with
    | (first, rest) =>
      if isImportBlock first then
        dropEnd (· = '\n') first ++ ['\n'] ++ ls ++ match rest with
          | some rest => ['\n', '\n'] ++ rest
          | none => ['\n']
      else ls ++ ['\n', '\n'] ++ cs

/-- The old text with what the new one adds to it. -/
def merge (old new : List Char) : List Char :=
  let added := additions old new
  withImports (withBlocks old added.blocks) added.imports

/-- The old text with what the new one adds to it. -/
def mergeTexts (old new : String) : String := String.ofList (merge old.toList new.toList)

end ClientGen.ModuleText
