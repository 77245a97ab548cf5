import ClientGen.Schema.TypeExpr

/-!
# Declarations

The interfaces and type aliases of a model file.

* `DocComment`: what is said about a declaration or a property, with `DocComment.text`.
* `Declaration`: a declared name with its body.
* `Declaration.content`: the text of a declaration.
-/

namespace ClientGen

/-- Closing marks of comments taken out of a text by a backslash between star and slash. -/
def defuse : List Char → List Char
  | [] => []
  | '*' :: '/' :: cs => '*' :: '\\' :: '/' :: defuse cs
  | c :: cs => c :: defuse cs

/-- A text on one line that can stand inside a comment. -/
def commentText (s : String) : String := String.ofList (defuse (Text.oneLine s.toList))

/-- What is said about a declaration or a property. -/
structure DocComment where
  /-- The description; only a text that is not blank is shown. -/
  description : Option Node
  /-- The value may not be written. -/
  readOnly : Bool := false
  /-- The value may not be read. -/
  writeOnly : Bool := false
deriving Repr

namespace DocComment

/-- The parts of the comment. -/
def parts (d : DocComment) : List String :=
  (match d.description with
    | some (.text s) => if (Text.trim s.toList).isEmpty then [] else [commentText s]
    | _ => [])
  ++ (if d.readOnly then ["@readonly"] else [])
  ++ (if d.writeOnly then ["@writeonly"] else [])

/-- The comment on a line of its own; nothing if there is nothing to say. -/
def text (d : DocComment) (indent : String) : String :=
  match d.parts with
  | [] => ""
  | parts => indent ++ "/** " ++ " ".intercalate parts ++ " */\n"

/-- The comment of a schema that is declared. -/
def ofSchema (schema : Fields) : DocComment := { description := Fields.get? schema "description" }

/-- The comment of a property. -/
def ofProperty (schema : Node) : DocComment :=
  { description := schema.get? "description"
    readOnly := match schema.get? "readOnly" with | some (.bool true) => true | _ => false
    writeOnly := match schema.get? "writeOnly" with | some (.bool true) => true | _ => false }

end DocComment

/-- A property of an interface. -/
structure Property where
  /-- The name of the property in the document. -/
  name : String
  /-- May the property be missing? -/
  optional : Bool
  /-- The type of the property. -/
  type : TypeExpr
  /-- What is said about the property. -/
  comment : DocComment
deriving Repr

/-- The lines of a property. -/
def Property.text (p : Property) : String :=
  p.comment.text "  " ++ "  " ++ propertyKey p.name ++ (if p.optional then "?" else "") ++ ": "
    ++ p.type.text ++ ";\n"

/-- What a name is declared as. -/
inductive Body where
  /-- An interface with properties. -/
  | properties (ps : List Property)
  /-- An interface that allows every key. -/
  | anything
  /-- An alias of a type. -/
  | alias (type : TypeExpr)
deriving Repr

/-- One declaration of a model file. -/
structure Declaration where
  /-- The declared name. -/
  name : String
  /-- What the name is declared as. -/
  body : Body
  /-- What is said about it. -/
  comment : DocComment
  /-- Where in the document the declaration comes from. -/
  origin : String
deriving Repr

namespace Declaration

/-- The text of a declaration, with a line feed at its end. -/
def content (d : Declaration) : String :=
  d.comment.text "" ++ match d.body with
    | .properties ps =>
      "export interface " ++ d.name ++ " \x7b\n" ++ String.join (ps.map Property.text) ++ "\x7d\n"
    | .anything => "export interface " ++ d.name ++ " \x7b\n  [key: string]: any;\n\x7d\n"
    | .alias type => "export type " ++ d.name ++ " = " ++ type.text ++ ";\n"

/-- The interface names that a declaration uses as types. -/
def uses (d : Declaration) : List String :=
  match d.body with
  | .properties ps => ps.flatMap fun p => p.type.names
  | .anything => []
  | .alias type => type.names

end Declaration

end ClientGen
