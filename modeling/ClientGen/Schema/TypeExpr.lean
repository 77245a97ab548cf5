import ClientGen.Schema.Kind
import ClientGen.Node.Printer
import ClientGen.Naming.Names
import ClientGen.Text.Replace
import ClientGen.Text.Blank

/-!
# Type expressions

The types that generated code gives to properties, as trees, and their text.

* `TypeExpr`: the trees.
* `TypeExpr.text`: the text of a type.
* `TypeExpr.orNull`: a type that allows null.
* `quote`, `literal`, `propertyKey`: texts, values and property names in generated code.
* `TypeExpr.names`: the interface names that a type uses. Neither allowing null nor leaving out
  repeated members adds any.
-/

namespace ClientGen

/-- A type in generated code. -/
inductive TypeExpr where
  /-- The type of all values. -/
  | any
  /-- A basic type. -/
  | basic (word : String)
  /-- A declared interface or alias. -/
  | named (name : String)
  /-- A single value in the spelling of generated code. -/
  | value (literal : String)
  /-- A value of any of the types. -/
  | union (members : List TypeExpr)
  /-- A list of items. -/
  | array (item : TypeExpr)
  /-- An object with free keys. -/
  | record (value : TypeExpr)
deriving Repr

namespace TypeExpr

/-- What stands between the members of a union. -/
def bar : String := " | "

/-- A type that consists of parts is put in parentheses where a single one is needed. -/
def parenthesized (text : String) : String :=
  if Text.occursIn bar.toList text.toList || Text.occursIn " & ".toList text.toList then
    "(" ++ text ++ ")"
  else text

mutual

/-- The text of a type. -/
def text : TypeExpr → String
  | any => "any"
  | basic word => word
  | named name => name
  | value lit => lit
  | union members => bar.intercalate (texts members)
  | array item => parenthesized item.text ++ "[]"
  | record v => "Record<string, " ++ v.text ++ ">"

/-- The texts of some types. -/
def texts : List TypeExpr → List String
  | [] => []
  | t :: ts => t.text :: texts ts

end

mutual

/-- The interface names that a type uses, in the order of the text. -/
def names : TypeExpr → List String
  | named name => [name]
  | union members => namesOf members
  | array item => item.names
  | record v => v.names
  | _ => []

/-- The interface names that some types use. -/
def namesOf : List TypeExpr → List String
  | [] => []
  | t :: ts => t.names ++ namesOf ts

end

/-- The types without those whose text has occurred before. -/
def distinct (types : List TypeExpr) : List TypeExpr :=
  (types.foldl
    (fun (kept : List TypeExpr) t => if (texts kept).contains t.text then kept else kept ++ [t]) [])

theorem mem_namesOf {name : String} {types : List TypeExpr} :
    name ∈ namesOf types ↔ ∃ t ∈ types, name ∈ t.names := by
  induction types with
  | nil => simp [namesOf]
  | cons t ts ih => simp [namesOf, ih]

/-- Nothing is added when repeated texts are left out. -/
theorem mem_of_mem_distinct {t : TypeExpr} {types : List TypeExpr} (h : t ∈ distinct types) :
    t ∈ types := by
  -- What is kept comes from the types that are already kept or from those still to come.
  have hfold : ∀ (rest kept : List TypeExpr),
      t ∈ rest.foldl (fun kept t =>
        if (texts kept).contains t.text then kept else kept ++ [t]) kept → t ∈ kept ∨ t ∈ rest := by
    intro rest
    induction rest with
    | nil => exact fun kept h => .inl h
    | cons u rest ih =>
      intro kept h
      rw [List.foldl_cons] at h
      rcases ih _ h with h | h
      · split at h
        · exact .inl h
        · rcases List.mem_append.mp h with h | h
          · exact .inl h
          · exact .inr (List.mem_cons.mpr (.inl (List.mem_singleton.mp h)))
      · exact .inr (List.mem_cons_of_mem u h)
  simpa using hfold types [] h

/-- The texts between the bars of a text. The first argument counts the characters that still
belong to the bar read last. -/
def betweenBars : Nat → List Char → List (List Char)
  | _, [] => [[]]
  | skip + 1, _ :: cs => betweenBars skip cs
  | 0, c :: cs =>
    if Text.startsWith bar.toList (c :: cs) then [] :: betweenBars 2 cs
    else Text.consFirst c (betweenBars 0 cs)

/-- Does the text of the type allow null, as `any` or by naming it between bars? -/
def allowsNull (t : TypeExpr) : Bool :=
  t.text == "any" || (betweenBars 0 t.text.toList).contains "null".toList

/-- The type with null allowed. -/
def orNull (t : TypeExpr) : TypeExpr :=
  if t.allowsNull then t else union [t, basic "null"]

/-- Allowing null uses no further names. -/
@[simp]
theorem names_orNull (t : TypeExpr) : t.orNull.names = t.names := by
  unfold orNull
  split
  · rfl
  · simp [names, namesOf]

end TypeExpr

/-- A character between single quotes. -/
def quotedChar (c : Char) : List Char :=
  if c = '\\' then ['\\', '\\']
  else if c = '\'' then ['\\', '\'']
  else if c = '\n' then ['\\', 'n']
  else [c]

/-- A text between single quotes. -/
def quote (s : String) : String := "'" ++ String.ofList (s.toList.flatMap quotedChar) ++ "'"

/-- A value in the spelling of generated code. -/
def literal : Node → String
  | .bool b => if b then "true" else "false"
  | .null => "null"
  | .int n => toString n
  | .real x => x.text
  | .text s => quote s
  | node => node.jsonText

/-- The name of a property in generated code: as it is where it is an identifier, else quoted. -/
def propertyKey (name : String) : String :=
  if Naming.isIdentifier name then name else quote name

end ClientGen
