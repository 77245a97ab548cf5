import ClientGen.Host.Label
import ClientGen.Text.Case
import ClientGen.Text.Lines

/-!
# Host names

* `Name.labels`: the labels of a name.
* `Name.isInternational`: is a text in any characters a name?
* `Name.isDecodable`: does a name in ASCII that starts with a coded label stand for a name?
-/

namespace ClientGen.Host.Name

/-- Characters that stand between labels: the full stop and those of Chinese and Japanese. -/
def isDot (c : Char) : Bool := c == '.' || c == '。' || c == '．' || c == '｡'

/-- The labels of a name. A dot at the end adds none. -/
def labels (cs : List Char) : List (List Char) :=
  let parts := Text.splitOn '.' (cs.map fun c => if isDot c then '.' else c)
  if parts.getLast? = some [] then parts.dropLast else parts

/-- The most characters of a label. -/
def longestLabel : Nat := 63

/-- The most characters of a name, not counting a dot at the end. -/
def longestName : Nat := 253

/-- Is a text in any characters a name? -/
def isInternational (cs : List Char) : Bool :=
  cs.length ≤ longestName + 1 &&
    match (labels (Text.lower cs)).mapM Label.length? with
    | some lengths =>
      lengths.all (· ≤ longestLabel)
        && lengths.foldl (· + ·) 0 + (lengths.length - 1) ≤ longestName
    | none => false

/-- Does a name in ASCII stand for a name? Only one that starts with a coded label has to. -/
def isDecodable (cs : List Char) : Bool :=
  let cs := Text.lower cs
  !Label.codeMark.isPrefixOf cs
    || (cs.length ≤ longestName + 1 && (labels cs).all Label.isCoded)

end ClientGen.Host.Name
