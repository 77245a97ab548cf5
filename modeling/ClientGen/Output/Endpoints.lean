import ClientGen.Endpoint.Group
import ClientGen.Output.File

/-!
# Endpoint files

One file for each tag with a constant that holds the path of every endpoint.

* `EndpointFile.comment`: the comment of an endpoint.
* `EndpointFile.text`: the text of a file.
* `EndpointFile.indexText`: the text of the file that gathers all of them.
-/

namespace ClientGen.EndpointFile

/-- The comment of an endpoint. -/
def comment (e : Endpoint) : String :=
  "/** " ++ e.method ++ " " ++ e.path ++ (if e.description.isEmpty then "" else ": " ++ e.description)
    ++ " */"

/-- The member of the constant that gives the path of an endpoint. -/
def member (e : Endpoint) : String :=
  e.name ++ ": (" ++ signature e.pathArguments ++ ") => `" ++ e.template.text ++ "`,"

/-- The text of the file for the endpoints of one tag. -/
def text (g : EndpointGroup) : String :=
  textOfLines (
    ["/**",
      " * " ++ g.pascalTag ++ " Endpoints",
      " * Auto-generated from Swagger specification",
      " */",
      "",
      "export const " ++ g.constant ++ " = \x7b"]
    ++ (g.endpoints.flatMap fun e => ["  " ++ comment e, "  " ++ member e])
    ++ ["\x7d as const;",
      "",
      "export type " ++ g.pascalTag ++ "EndpointKeys = keyof typeof " ++ g.constant ++ ";"])

/-- The text of the file that gathers the endpoints of all tags. -/
def indexText (groups : List EndpointGroup) : String :=
  textOfLines (
    (groups.map fun g => "import \x7b " ++ g.constant ++ " \x7d from './" ++ g.tag ++ "';")
    ++ (if groups.isEmpty then []
      else ["",
        "export \x7b " ++ ", ".intercalate (groups.map EndpointGroup.constant) ++ " \x7d;"])
    ++ ["", "export const endpoints = \x7b"]
    ++ (groups.map fun g => "  " ++ g.tag ++ ": " ++ g.constant ++ ",")
    ++ ["\x7d as const;"])

end ClientGen.EndpointFile
