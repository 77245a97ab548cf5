import ClientGen.Text.Blank

/-!
# Lines

Three notions of a line.

* `unifyNewlines`: the line ends `\r\n` and `\r` of a stored text become `\n` on reading.
* `splitOn`: lines that end at one given character.
* `lines`: lines that end at any line boundary of Unicode; a boundary at the very end starts no
  further line.
* `indentRest`: a text with a margin in front of all its lines but the first.
-/

namespace ClientGen.Text

/-- A text as it is read back from storage: `\r\n` and a lone `\r` both become `\n`. -/
def unifyNewlines : List Char → List Char
  | [] => []
  | '\r' :: '\n' :: cs => '\n' :: unifyNewlines cs
  | c :: cs => (if c = '\r' then '\n' else c) :: unifyNewlines cs

/-- The pieces of a text between the occurrences of one character; always at least one piece. -/
def splitOn (sep : Char) : List Char → List (List Char)
  | [] => [[]]
  | c :: cs => if c = sep then [] :: splitOn sep cs else consFirst c (splitOn sep cs)

/-- The text before the first occurrence of a character. -/
def before (sep : Char) (cs : List Char) : List Char := cs.takeWhile (· ≠ sep)

/-- Characters at which a line of Unicode text ends. -/
def isLineEnd (c : Char) : Bool :=
  let n := c.toNat
  (0x0a ≤ n && n ≤ 0x0d) || (0x1c ≤ n && n ≤ 0x1e) || n == 0x85 || n == 0x2028 || n == 0x2029

/-- The lines of a text without their line ends. The pair `\r\n` is a single line end. -/
def lines : List Char → List (List Char)
  | [] => []
  | '\r' :: '\n' :: cs => [] :: lines cs
  | c :: cs =>
    if isLineEnd c then [] :: lines cs
    else match cs with
      | [] => [[c]]
      | d :: _ => if isLineEnd d then [c] :: (lines cs).tail else consFirst c (lines cs)

/-- A text with a margin in front of all its lines but the first. Empty lines get none. All lines
but the last end in a line feed afterwards. -/
def indentRest (margin : List Char) (cs : List Char) : List Char :=
  match lines (cs ++ ['\n']) with
  | [] => []
  | first :: rest =>
    joined ['\n'] (first :: rest.map fun line => if line.isEmpty then line else margin ++ line)

end ClientGen.Text
