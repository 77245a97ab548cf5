/-!
# Blank characters

The white space of every script, and the two things done with it: trimming a text and cutting it
into fields.

* `isBlank`: the class.
* `trim`, `trimEnd`: a text without the blanks around it.
* `fields`: the maximal runs of other characters, in order; none of them is empty.
* `oneLine`: the fields of a text joined by single spaces.
-/

namespace ClientGen.Text

/-- White space: the tab and line controls, the separators U+001C to U+001F, and the spaces of
every script. -/
def isBlank (c : Char) : Bool :=
  let n := c.toNat
  (0x09 ≤ n && n ≤ 0x0d) || (0x1c ≤ n && n ≤ 0x20) || n == 0x85 || n == 0xa0 || n == 0x1680
    || (0x2000 ≤ n && n ≤ 0x200a) || n == 0x2028 || n == 0x2029 || n == 0x202f || n == 0x205f
    || n == 0x3000

/-- A text without the characters of a class at its end. -/
def dropEnd (p : Char → Bool) (cs : List Char) : List Char :=
  (cs.reverse.dropWhile p).reverse

/-- A text without the blanks at its end. -/
def trimEnd (cs : List Char) : List Char := dropEnd isBlank cs

/-- A text without the blanks at either end. -/
def trim (cs : List Char) : List Char := trimEnd (cs.dropWhile isBlank)

/-- Puts a character in front of the first of some words; with no word yet it starts one. -/
def consFirst (c : Char) : List (List Char) → List (List Char)
  | [] => [[c]]
  | w :: ws => (c :: w) :: ws

/-- The maximal runs of characters that are not blank. -/
def fields : List Char → List (List Char)
  | [] => []
  | c :: cs =>
    if isBlank c then fields cs
    else match cs with
      | [] => [[c]]
      | d :: _ => if isBlank d then [c] :: fields cs else consFirst c (fields cs)

/-- Words written one after another with a separator between neighbours. -/
def joined (sep : List Char) : List (List Char) → List Char
  | [] => []
  | [w] => w
  | w :: ws => w ++ sep ++ joined sep ws

/-- The fields of a text with one space between neighbours: all on one line. -/
def oneLine (cs : List Char) : List Char := joined [' '] (fields cs)

end ClientGen.Text
