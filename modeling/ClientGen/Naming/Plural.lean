import ClientGen.Naming.Words
import ClientGen.Text.Replace

/-!
# Singular forms

The singular of an English plural by rule. A word that only looks like a plural can come out
wrong.

* `irregularSingulars`: plurals that no ending tells.
* `singular`: the singular form.
-/

namespace ClientGen.Naming

/-- Plurals that do not follow from their ending. -/
def irregularSingulars : List (String × String) :=
  [("people", "person"), ("men", "man"), ("women", "woman"), ("children", "child"),
    ("teeth", "tooth"), ("feet", "foot"), ("mice", "mouse"), ("geese", "goose")]

/-- A word without its last `n` characters. -/
def dropLetters (n : Nat) (word : String) : String :=
  String.ofList (word.toList.take (word.toList.length - n))

/-- Does the word start with a capital letter of ASCII? -/
def startsUpper (word : String) : Bool := word.toList.head?.any Text.isAsciiUpper

/-- The singular of a word. Irregular plurals come first and keep their capital letter; then the
ending decides, whatever its case. -/
def singular (word : String) : String :=
  let small := lowerCase word
  let ends (ending : String) : Bool := Text.endsWith ending.toList small.toList
  match irregularSingulars.lookup small with
  | some form => if startsUpper word then capitalizeName form else form
  | none =>
    if ends "ies" then dropLetters 3 word ++ "y"
    else if ends "ves" then dropLetters 3 word ++ "f"
    else if ends "ses" || ends "xes" || ends "ches" || ends "shes" then dropLetters 2 word
    else if ends "s" && !ends "ss" then dropLetters 1 word
    else word

end ClientGen.Naming
