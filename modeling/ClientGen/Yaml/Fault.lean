import ClientGen.Limit

/-!
# Faults of YAML texts

* `Yaml.Fault`: why a text is not read.
-/

namespace ClientGen.Yaml

/-- Why a YAML text is not read. -/
inductive Fault where
  /-- It is not YAML, or holds what no YAML document may hold. -/
  | malformed
  /-- An escape has a code beyond the last character. -/
  | character
  /-- A number is too large to be worked with: a code, or a place of a fraction to base sixty. -/
  | tooLarge
  /-- A number is announced and is not written as numbers are. -/
  | number
  /-- A number is announced and nothing is written. -/
  | emptyNumber
  /-- A truth value is announced, and what is written is no word for one. -/
  | truth
  /-- A date that no calendar has. -/
  | date
  /-- A date is announced, and what is written does not look like one. -/
  | noDate
  /-- It goes beyond a limit. -/
  | beyond (excess : Excess)
deriving DecidableEq, Repr

/-- What is there, or else a fault: the text is no YAML. -/
def orMalformed {α : Type} : Option α → Except Fault α
  | some a => .ok a
  | none => .error .malformed

end ClientGen.Yaml
