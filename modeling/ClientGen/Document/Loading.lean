import ClientGen.Document.Address
import ClientGen.File.Tree
import ClientGen.Naming.Words
import ClientGen.Text.Replace
import ClientGen.Yaml.Document

/-!
# Loading documents

A document comes from a file or from a server, as JSON or as YAML.

* `Document.parse`: the document in a text.
* `Document.validate`: what every document has to have.
* `Document.read`: the document of a file.
* `Response`, `Document.receive`: the document in the answer of a server.
* `Document.schemas`: the named schemas of a document.
-/

namespace ClientGen

/-- What came of asking a server. -/
inductive Response where
  /-- An answer with a status and a body. -/
  | answered (status : Int) (body : String)
  /-- No answer. -/
  | failed (reason : String)
deriving DecidableEq, Repr

namespace Document

/-- Does the source name a server? -/
def isUrl (source : String) : Bool :=
  Text.startsWith "http://".toList source.toList || Text.startsWith "https://".toList source.toList

/-- Is the source written in YAML? Its name says so, in any case and before a question mark. -/
def isYaml (source : String) : Bool :=
  let name := Text.before '?' (Text.lower source.toList)
  Text.endsWith ".yaml".toList name || Text.endsWith ".yml".toList name

/-- The document in the text of a source. -/
def parse (source text : String) : Except Failure Node :=
  if isYaml source then
    (Yaml.parse text).mapError (.ofYaml (.document (.invalidYaml source)))
  else (Json.parse text).mapError (.ofJson fun e => .document (.invalidJson source e))

/-- The document, if it is an object with paths that states its version. -/
def validate (document : Node) : Except DocumentError Node :=
  match document with
  | .object fields =>
    if !(Fields.get? fields "paths").any Node.isObject then .error .noPaths
    else if ["openapi", "swagger"].any fun v => (Fields.get? fields v).any Node.isTrue then
      .ok document
    else .error .noVersion
  | _ => .error .notAnObject

/-- The document in the text of a source, if it is valid. -/
def ofText (source text : String) : Except Failure Node := do
  (validate (← parse source text)).mapError .document

/-- The place in the file tree that a source names. -/
def placeOf (t : FileTree) (source : String) : Except Failure Path :=
  match t.expand? (.ofText source) with
  | none => .error .unknownHome
  | some path =>
    let place : Path := ⟨.root, path.absolute t.workingDirectory⟩
    if source.toList.contains '\x00' then .error .nullInPath
    else if t.isTooLong place then .error .nameTooLong
    else .ok place

/-- The document of a file. -/
def read (t : FileTree) (source : String) : Except Failure Node := do
  let place ← placeOf t source
  match t.read? place with
  | some text => ofText source text
  | none => .error (.document (.notFound place.text))

/-- The document in the answer of a server. A status from 200 to 299 is a success. An address that
names no host may be asked for, but no answer from it is taken. -/
def receive (url : String) (response : Response) : Except Failure Node :=
  let address := Address.ofUrl url
  if !isValidUrl url then .error .invalidAddress
  else if !address.isDecodable then .error .undecodableHost
  else if !address.isWritable then .error .unwritableHost
  else match response with
    | .failed reason => .error (.document (.unreachable url reason))
    | .answered status body =>
      if address.host.isEmpty then .error .noHost
      else if 200 ≤ status && status ≤ 299 then ofText url body
      else .error (.document (.status url status))

/-- The named schemas of a document, wherever its version keeps them. -/
def schemas (document : Node) : Fields :=
  let components := (document.get? "components").bind (·.get? "schemas")
  match components with
  | none | some .null => ((document.get? "definitions").map Node.fields).getD []
  | some node => node.fields

end Document

end ClientGen
