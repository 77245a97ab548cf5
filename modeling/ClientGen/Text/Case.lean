import ClientGen.Text.CaseTable
import ClientGen.Text.CasedTable

/-!
# Upper and lower case

Case is a map from characters to texts: the sharp s becomes two letters in upper case. ASCII
letters are decided directly, all others by table. A letter at the beginning of a word may have a
form of its own, and so has the small sigma at the end of one.

* `upperChar`, `titleChar`, `lowerChar`, `upper`, `lower`: the maps.
* `endsWord`: is the sigma between two texts the last letter of its word?
* `capitalize`: the first character in upper case, the rest as it is.
* `properCase`: the first character as at the beginning of a word, the rest in lower case.
* `uncapitalize`: the first character in lower case, the rest as it is.
-/

namespace ClientGen.Text

/-- Does the code point belong to the run? -/
def CaseRun.contains (r : CaseRun) (n : Nat) : Bool :=
  r.first ≤ n && n ≤ r.last && (n - r.first) % r.step == 0

/-- The counterpart of a code point by the first run that contains it; a code point outside all
runs stays. -/
def CaseRun.convert (runs : List CaseRun) (n : Nat) : Char :=
  match runs.find? (·.contains n) with
  | some r => Char.ofNat ((n : Int) + r.offset).toNat
  | none => Char.ofNat n

/-- A character in upper case. -/
def upperChar (c : Char) : List Char :=
  if c.toNat < 128 then [if 'a' ≤ c ∧ c ≤ 'z' then Char.ofNat (c.toNat - 32) else c]
  else match upperSequences.lookup c.toNat with
    | some s => s.map Char.ofNat
    | none => [CaseRun.convert upperRuns c.toNat]

/-- A character as it stands at the beginning of a word. -/
def titleChar (c : Char) : List Char :=
  match titleSequences.lookup c.toNat, titleRuns.find? (·.contains c.toNat) with
  | some s, _ => s.map Char.ofNat
  | none, some r => [Char.ofNat ((c.toNat : Int) + r.offset).toNat]
  | none, none => upperChar c

/-- A character in lower case, wherever it stands. -/
def lowerChar (c : Char) : List Char :=
  if c.toNat < 128 then [if 'A' ≤ c ∧ c ≤ 'Z' then Char.ofNat (c.toNat + 32) else c]
  else if c.toNat == dottedCapitalI.1 then dottedCapitalI.2.map Char.ofNat
  else [CaseRun.convert lowerRuns c.toNat]

/-- A text in upper case. -/
def upper (cs : List Char) : List Char := cs.flatMap upperChar

/-- Does the character have case? -/
def isCased (c : Char) : Bool :=
  if c.toNat < 128 then ('A' ≤ c && c ≤ 'Z') || ('a' ≤ c && c ≤ 'z')
  else inRanges casedRanges c.toNat

/-- Is the character passed over when a cased neighbour is looked for? -/
def isCaseIgnorable (c : Char) : Bool :=
  if c.toNat < 128 then "'.:^`".contains c else inRanges caseIgnorableRanges c.toNat

/-- Does a text have case at its first character that counts? -/
def startsCased (cs : List Char) : Bool := (cs.dropWhile isCaseIgnorable).head?.any isCased

/-- Is the letter between two texts the last one of its word? The text before is given from its end
on. -/
def endsWord (before after : List Char) : Bool := startsCased before && !startsCased after

/-- A text in lower case, after the text `before`, given from its end on. -/
def lowerAfter (before : List Char) : List Char → List Char
  | [] => []
  | c :: cs =>
    (if c = 'Σ' then [if endsWord before cs then 'ς' else 'σ'] else lowerChar c)
      ++ lowerAfter (c :: before) cs

/-- A text in lower case. -/
def lower (cs : List Char) : List Char := lowerAfter [] cs

/-- The first character in upper case, the rest as it is. -/
def capitalize : List Char → List Char
  | [] => []
  | c :: cs => upperChar c ++ cs

/-- The first character in lower case, the rest as it is. -/
def uncapitalize : List Char → List Char
  | [] => []
  | c :: cs => lowerChar c ++ cs

/-- The first character as at the beginning of a word, the rest in lower case. -/
def properCase : List Char → List Char
  | [] => []
  | c :: cs => titleChar c ++ lowerAfter [c] cs

end ClientGen.Text
