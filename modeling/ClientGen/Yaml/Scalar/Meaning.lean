import ClientGen.Node.Basic
import ClientGen.Yaml.Scalar.Date
import ClientGen.Yaml.Scalar.Number

/-!
# The meaning of scalars

What a scalar without quotes stands for follows from its spelling: the words for null and the truth
values, whole numbers, and fractions. Everything else is text, also a date, which YAML has a type of
its own for. A type in front of a scalar decides instead of the spelling; binary values are refused.

* `Meaning`: what a scalar can stand for.
* `Meaning.ofPlain`: what a plain scalar stands for.
* `Meaning.ofType`: what a scalar of a standard type stands for.
-/

namespace ClientGen.Yaml

/-- What a scalar can stand for. -/
inductive Meaning where
  /-- A value. -/
  | node (value : Node)
  /-- As a key: the members of other mappings are taken over. -/
  | merge
  /-- The sign for a default value. It means something as a key only. -/
  | default

namespace Meaning

/-- Words for null. -/
def nullWords : List String := ["", "~", "null", "Null", "NULL"]

/-- Words for true. -/
def trueWords : List String :=
  ["yes", "Yes", "YES", "true", "True", "TRUE", "on", "On", "ON"]

/-- Words for false. -/
def falseWords : List String :=
  ["no", "No", "NO", "false", "False", "FALSE", "off", "Off", "OFF"]

/-- What a date stands for: its text, since no node is a date, if there is such a date. -/
def ofDate (text : String) : Except Fault Meaning :=
  match Moment.ofText? text.toList with
  | none => .error .noDate
  | some m => if m.isReal then .ok (node (.text text)) else .error .date

/-- What a plain scalar stands for. -/
def ofPlain (text : String) : Except Fault Meaning :=
  let cs := text.toList
  if nullWords.contains text then .ok (node .null)
  else if trueWords.contains text then .ok (node (.bool true))
  else if falseWords.contains text then .ok (node (.bool false))
  else if text = "<<" then .ok merge
  else if text = "=" then .ok default
  else if announcesFraction cs then (fractionOf cs).map fun x => node (.real x)
  else if announcesInteger cs then (integerOf cs).map fun n => node (.int n)
  else if Moment.announces cs then ofDate text
  else .ok (node (.text text))

/-- The truth value of a word, however it is capitalised. -/
def truthOf (text : String) : Except Fault Bool :=
  let word := String.ofList (Text.lower text.toList)
  if trueWords.contains word then .ok true
  else if falseWords.contains word then .ok false
  else .error .truth

/-- What a scalar of a standard type stands for. -/
def ofType (type text : String) : Except Fault Meaning :=
  match type with
  | "str" => .ok (node (.text text))
  | "null" => .ok (node .null)
  | "bool" => (truthOf text).map fun b => node (.bool b)
  | "int" => (integerOf text.toList).map fun n => node (.int n)
  | "float" => (fractionOf text.toList).map fun x => node (.real x)
  | "timestamp" => ofDate text
  | _ => .error .malformed

end Meaning

end ClientGen.Yaml
