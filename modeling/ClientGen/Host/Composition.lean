import ClientGen.Host.CompositionTable

/-!
# Composed characters

A letter with a mark can often be written as one character or as two. A text is composed if it has
one character wherever there is one, and if its marks stand in their order. The text is taken apart,
its marks are put in order, and it is composed again: nothing may have changed then.

* `combiningClass`: the class of a mark; 0 for other characters.
* `decompose`, `sortMarks`, `compose`: the three steps.
* `isComposed`: is a text composed?

Only the characters that names may have are covered.
-/

namespace ClientGen.Host

/-- The class that decides the order of a mark; 0 for a character that is none. -/
def combiningClass (c : Char) : Nat :=
  match combiningRanges.find? fun r => r.1 ≤ c.toNat && c.toNat ≤ r.2.1 with
  | some r => r.2.2
  | none => 0

/-- What a composed character is composed of. -/
def parts? (c : Char) : Option (Char × Char) :=
  (compositions.find? (·.1 == c.toNat)).map fun r => (Char.ofNat r.2.1, Char.ofNat r.2.2)

/-- The character that a character and a mark compose. -/
def whole? (c mark : Char) : Option Char :=
  (compositions.find? fun r => r.2.1 == c.toNat && r.2.2 == mark.toNat).map fun r => Char.ofNat r.1

/-- The most marks that a character is composed of. -/
def mostMarks : Nat := 3

/-- The letter and the marks that a character is composed of, at most `marks` of them. -/
def decomposeChar : Nat → Char → List Char
  | 0, c => [c]
  | marks + 1, c =>
    match parts? c with
    | some (c, mark) => decomposeChar marks c ++ [mark]
    | none => [c]

/-- A text with all its characters taken apart. -/
def decompose (cs : List Char) : List Char := cs.flatMap (decomposeChar mostMarks)

/-- Puts a character behind a text, which is given from its end on, before the marks of a higher
class. -/
def insertMark (c : Char) : List Char → List Char
  | [] => [c]
  | last :: before =>
    if combiningClass c ≠ 0 && combiningClass c < combiningClass last then
      last :: insertMark c before
    else c :: last :: before

/-- A text with its marks in order. -/
def sortMarks (cs : List Char) : List Char :=
  (cs.foldl (fun before c => insertMark c before) []).reverse

/-- Can a mark reach the letter that these marks stand on, given from the last one on? Marks of the
same class are in its way. -/
def reaches (marks : List Char) (c : Char) : Bool :=
  marks.head?.all fun last => combiningClass last < combiningClass c

/-- A text composed from the letter `letter` on, on which some marks stand, given from the last one
on. -/
def composeFrom (letter : Char) (marks : List Char) : List Char → List Char
  | [] => letter :: marks.reverse
  | c :: cs =>
    match if reaches marks c then whole? letter c else none with
    | some whole => composeFrom whole marks cs
    | none =>
      if combiningClass c = 0 then letter :: marks.reverse ++ composeFrom c [] cs
      else composeFrom letter (c :: marks) cs

/-- A text with its marks composed with their letters. -/
def compose : List Char → List Char
  | [] => []
  | c :: cs => composeFrom c [] cs

/-- Is a text composed? -/
def isComposed (cs : List Char) : Bool := compose (sortMarks (decompose cs)) = cs

end ClientGen.Host
