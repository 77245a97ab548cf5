/-!
# Matches in a text

* `lineMatches`: what a recogniser finds at the starts of lines, from left to right and without
  overlap.
* `skipWord?`, `skipAll`, `skipSome?`: the steps that recognisers are made of.
-/

namespace ClientGen.Text

/-- A recogniser looks at the start of a text. It gives what it found and the rest of the text. -/
abbrev Recogniser (α : Type) := List Char → Option (α × List Char)

/-- What a recogniser finds at line starts. The number counts the characters that still belong to
the match found last; the truth value says whether the text stands at the start of a line. -/
def lineMatchesFrom {α : Type} (recognise : Recogniser α) : Nat → Bool → List Char → List α
  | _, _, [] => []
  | skip + 1, _, c :: cs => lineMatchesFrom recognise skip (c = '\n') cs
  | 0, false, c :: cs => lineMatchesFrom recognise 0 (c = '\n') cs
  | 0, true, c :: cs =>
    match recognise (c :: cs) with
    | some (a, rest) => a :: lineMatchesFrom recognise (cs.length - rest.length) (c = '\n') cs
    | none => lineMatchesFrom recognise 0 (c = '\n') cs

/-- What a recogniser finds at the starts of lines, from left to right and without overlap. -/
def lineMatches {α : Type} (recognise : Recogniser α) (cs : List Char) : List α :=
  lineMatchesFrom recognise 0 true cs

/-- The text after a word that has to come next. -/
def skipWord? : List Char → List Char → Option (List Char)
  | [], cs => some cs
  | _ :: _, [] => none
  | w :: ws, c :: cs => if w = c then skipWord? ws cs else none

/-- The text after all characters of a class that come next. -/
def skipAll (p : Char → Bool) (cs : List Char) : List Char := cs.dropWhile p

/-- The text after all characters of a class that come next; at least one has to. -/
def skipSome? (p : Char → Bool) : List Char → Option (List Char)
  | [] => none
  | c :: cs => if p c then some (cs.dropWhile p) else none

end ClientGen.Text
