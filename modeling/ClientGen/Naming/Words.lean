import ClientGen.Text.Blank
import ClientGen.Text.Case
import ClientGen.Text.Letter

/-!
# Words of a name

Names arrive in every style: `getWidgets`, `pet-store`, `HTTPServer2`. A name is cut into words,
and words are put together again in one of two styles.

A word is a run of ASCII letters of one kind or of ASCII digits, where a capital letter may open a
run of small letters; in a run of capitals that is followed by a small letter, the last capital
belongs to the next word. All other characters only separate words.

* `splitWords`: the words of a name.
* `pascalCase`, `camelCase`: the words put together.
-/

namespace ClientGen.Naming

open Text

/-- Is there a word boundary between two neighbouring letters or digits `a` and `b`, the latter
followed by `next`? -/
def breaksBetween (a b : Char) (next : Option Char) : Bool :=
  if isAsciiUpper b then !isAsciiUpper a || next.any isAsciiLower
  else if isAsciiLower b then isAsciiDigit a
  else !isAsciiDigit a

/-- The words of a text. -/
def words : List Char → List (List Char)
  | [] => []
  | c :: cs =>
    if isAsciiAlphanumeric c then
      match cs with
      | d :: rest =>
        if isAsciiAlphanumeric d && !breaksBetween c d rest.head? then consFirst c (words cs)
        else [c] :: words cs
      | [] => [[c]]
    else words cs

/-- The words of a name. -/
def splitWords (name : String) : List String := (words name.toList).map String.ofList

/-- A word with a capital first letter, the rest in small letters. -/
def capitalizeWord (word : String) : String := String.ofList (properCase word.toList)

/-- A name with a capital first letter, the rest as it is. -/
def capitalizeName (name : String) : String := String.ofList (capitalize name.toList)

/-- A name in small letters. -/
def lowerCase (name : String) : String := String.ofList (lower name.toList)

/-- A name in capital letters. -/
def upperCase (name : String) : String := String.ofList (upper name.toList)

/-- The words of a name put together, each with a capital first letter. -/
def pascalCase (name : String) : String := String.join ((splitWords name).map capitalizeWord)

/-- As `pascalCase`, but with a small first letter. -/
def camelCase (name : String) : String := String.ofList (uncapitalize (pascalCase name).toList)

end ClientGen.Naming
