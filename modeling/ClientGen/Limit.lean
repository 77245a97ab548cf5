/-!
# Limits of reading

Texts are read as long as their numbers and their nesting stay within limits. The limits of nesting
are those of the stack on which a text is read. Expansions of schemas run on the same stack, but
there it is taken to be large enough.

* `Excess`: which limit a text goes beyond.
* `Limit.digits`: the most decimal digits of a whole number, with `Limit.isTooLong`.
* `Limit.jsonDepth`, `Limit.yamlDepth`: the most lists and objects inside each other.
-/

namespace ClientGen

/-- The limits that a text can go beyond. -/
inductive Excess where
  /-- A whole number has too many digits. -/
  | digits
  /-- Lists and objects stand too deep inside each other. -/
  | depth
deriving DecidableEq, Repr

namespace Limit

/-- The most decimal digits that a whole number may have. -/
def digits : Nat := 4300

/-- Does a whole number have more decimal digits than it may? -/
def isTooLong (n : Int) : Bool := Nat.pow 10 digits ≤ n.natAbs

/-- The most lists and objects of a JSON text that may stand inside each other. -/
def jsonDepth : Nat := 990

/-- The most lists and mappings of a YAML text that may stand inside each other. -/
def yamlDepth : Nat := 490

end Limit

end ClientGen
