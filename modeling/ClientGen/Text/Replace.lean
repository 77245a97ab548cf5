/-!
# Replacing parts of a text

* `mapChars`: every character stands for a text of its own. Escaping is of this kind.
* `replace`: every occurrence of a word, from left to right and without overlap, gives way to
  another word.
* `startsWith`, `endsWith`, `occursIn`: where a word stands in a text.
-/

namespace ClientGen.Text

/-- Each character replaced by a text. -/
def mapChars (f : Char → List Char) (cs : List Char) : List Char := cs.flatMap f

/-- Does the text start with the word? -/
def startsWith (word cs : List Char) : Bool := word.isPrefixOf cs

/-- Does the text end with the word? -/
def endsWith (word cs : List Char) : Bool := word.isSuffixOf cs

/-- Does the word occur in the text? -/
def occursIn (word : List Char) : List Char → Bool
  | [] => word.isEmpty
  | c :: cs => startsWith word (c :: cs) || occursIn word cs

/-- Replacement from left to right; the first argument counts the characters that still belong to
the occurrence replaced last. -/
def replaceSkipping (old new : List Char) : Nat → List Char → List Char
  | _, [] => []
  | skip + 1, _ :: cs => replaceSkipping old new skip cs
  | 0, c :: cs =>
    if startsWith old (c :: cs) then new ++ replaceSkipping old new (old.length - 1) cs
    else c :: replaceSkipping old new 0 cs

/-- Every occurrence of the non-empty word `old` replaced by `new`. -/
def replace (old new cs : List Char) : List Char := replaceSkipping old new 0 cs

end ClientGen.Text
