import ClientGen.Config.Keys
import ClientGen.BasePath
import ClientGen.Failure
import ClientGen.Path

/-!
# Settings

The settings of a run, and how they are found in a document.

* `AxiosSettings`, `HookSettings`, `Settings`: the settings with their defaults.
* `Checked`: a value or all errors that stand in its way.
* `Settings.ofFields`: the settings in an object, or what is wrong with them.
* `Settings.ofLayers`: the settings of a file with those of the command line laid over them.
-/

namespace ClientGen

/-- Settings of the module that holds the HTTP client. -/
structure AxiosSettings where
  /-- Write the module at all. -/
  generate : Bool := true
  /-- The directory of the module. -/
  directory : String := "config"
  /-- The expression for the base address of requests. -/
  baseUrl : String := "process.env.REACT_APP_API_URL"
  /-- Write handlers for requests and responses. -/
  interceptors : Bool := true
  /-- Do not look for missing packages. -/
  skipDependencyCheck : Bool := false
deriving DecidableEq, Repr

/-- How hooks are split into files. -/
inductive HookPattern where
  /-- One hook for each operation. -/
  | separate
  /-- One hook for each tag. -/
  | combined
deriving DecidableEq, Repr

/-- The word for a pattern. -/
def HookPattern.name : HookPattern → String
  | .separate => "separate"
  | .combined => "combined"

/-- Settings of the hooks. -/
structure HookSettings where
  /-- Write hooks at all. -/
  generate : Bool := true
  /-- The directory of the hooks. -/
  directory : String := "hooks"
  /-- How hooks are split into files. -/
  pattern : HookPattern := .separate
  /-- Let callers add request headers. -/
  headers : Bool := true
  /-- Send requests without the HTTP client module. -/
  useFetch : Bool := false
  /-- Do not look for missing packages. -/
  skipDependencyCheck : Bool := false
deriving DecidableEq, Repr

/-- The base paths as they are set. -/
inductive BasePathSetting where
  /-- None are set. -/
  | unset
  /-- A single one. -/
  | one (path : String)
  /-- A list of them. -/
  | many (paths : List String)
deriving DecidableEq, Repr

/-- The base paths of a setting, without empty ones. -/
def BasePathSetting.paths : BasePathSetting → List String
  | .unset => []
  | .one path => BasePath.ofList [path]
  | .many paths => BasePath.ofList paths

/-- The settings of a run. -/
structure Settings where
  /-- Where the document is. -/
  source : String
  /-- The directory below which everything is written. -/
  output : String := "./src/generated"
  /-- The directory of the models. -/
  models : String := "models"
  /-- The directory of the endpoints. -/
  endpoints : String := "endpoints"
  /-- Write index files. -/
  index : Bool := true
  /-- The beginnings of paths to strip. -/
  basePaths : BasePathSetting := .unset
  /-- The HTTP client module. -/
  axios : AxiosSettings := {}
  /-- The hooks. -/
  hooks : HookSettings := {}
deriving DecidableEq, Repr

namespace Settings

/-- The directory below which everything is written. -/
def outputPath (s : Settings) : Path := .ofText s.output

/-- The directory of the models. -/
def modelsPath (s : Settings) : Path := s.outputPath.child s.models

/-- The directory of the endpoints. -/
def endpointsPath (s : Settings) : Path := s.outputPath.child s.endpoints

/-- The directory of the hooks. -/
def hooksPath (s : Settings) : Path := s.outputPath.child s.hooks.directory

/-- The directory of the HTTP client module. -/
def axiosPath (s : Settings) : Path := s.outputPath.child s.axios.directory

end Settings

/-- A value, or all the errors that stand in its way. -/
abbrev Checked (α : Type) := Except (List SettingError) α

namespace Checked

/-- Applies a function to a value, with the errors of both. -/
def apply {α β : Type} (f : Checked (α → β)) (x : Checked α) : Checked β :=
  match f, x with
  | .ok f, .ok a => .ok (f a)
  | .ok _, .error es => .error es
  | .error es, .ok _ => .error es
  | .error es, .error es' => .error (es ++ es')

/-- A single error. -/
def fail {α : Type} (location : List String) (cause : SettingCause) : Checked α :=
  .error [{ location, cause }]

end Checked

namespace Settings

/-- A text. -/
def checkText (location : List String) : Node → Checked String
  | .text s => .ok s
  | _ => Checked.fail location .notText

/-- Words for the truth values, in small letters. -/
def boolWords : List (String × Bool) :=
  [("0", false), ("off", false), ("f", false), ("false", false), ("n", false), ("no", false),
    ("1", true), ("on", true), ("t", true), ("true", true), ("y", true), ("yes", true)]

/-- An ASCII letter in its small form; other characters stay. -/
def smallAscii (c : Char) : Char :=
  if Text.isAsciiUpper c then Char.ofNat (c.toNat + 32) else c

/-- The truth value that a whole number stands for. -/
def boolOfInt? (n : Int) : Option Bool :=
  if n = 0 then some false else if n = 1 then some true else none

/-- The bound of the whole numbers that fit into 64 bits with a sign. -/
def smallBound : Int := 0x8000000000000000

/-- The whole number that is meant when a truth value is needed: one that fits into 64 bits with a
sign. Of fractions the least one of these does not count. -/
def smallInt? : Node → Option Int
  | .int n => if -smallBound ≤ n ∧ n < smallBound then some n else none
  | .real x => x.toInt?.filter fun n => -smallBound < n && n < smallBound
  | _ => none

/-- A truth value: itself, a word for it in any case, or one of the numbers 0 and 1. -/
def checkBool (location : List String) (node : Node) : Checked Bool :=
  let orWord : Option Bool → Checked Bool
    | some b => .ok b
    | none => Checked.fail location .notBoolWord
  match node, smallInt? node with
  | .bool b, _ => .ok b
  | .text s, _ => orWord (boolWords.lookup (String.ofList (s.toList.map smallAscii)))
  | _, some n => orWord (boolOfInt? n)
  | _, none => Checked.fail location .notBool

/-- A pattern by its word. -/
def checkPattern (location : List String) : Node → Checked HookPattern
  | .text "separate" => .ok .separate
  | .text "combined" => .ok .combined
  | _ => Checked.fail location .notPattern

/-- The errors of the items of a list that should hold texts only, from the `i`-th item on. -/
def itemErrors (location : List String) : Nat → List Node → List SettingError
  | _, [] => []
  | i, x :: xs =>
    (match x with
      | .text _ => []
      | _ => [{ location := location ++ [toString i], cause := .notText }])
    ++ itemErrors location (i + 1) xs

/-- Base paths: none, a text or a list of texts. A value of another kind is no text and no list of
texts, and both is said. -/
def checkBasePaths (location : List String) : Node → Checked BasePathSetting
  | .null => .ok .unset
  | .text s => .ok (.one s)
  | .list xs =>
    match itemErrors (location ++ ["list[str]"]) 0 xs with
    | [] => .ok (.many (xs.filterMap Node.text?))
    | es => .error ({ location := location ++ ["str"], cause := .notText } :: es)
  | _ => .error [{ location := location ++ ["str"], cause := .notText },
      { location := location ++ ["list[str]"], cause := .notList }]

/-- A source that is not blank. -/
def checkSource (location : List String) : Node → Checked String
  | .text s => if (Text.trim s.toList).isEmpty then Checked.fail location .blankSource else .ok s
  | _ => Checked.fail location .notText

/-- A group of settings, which has to be an object. -/
def checkGroup {α : Type} (group : String) (check : List String → Fields → Checked α)
    (location : List String) : Node → Checked α
  | .object fields => check location fields
  | _ => Checked.fail location (.notGroup group)

/-- The setting under a name, or its default. Its other usual name counts first. -/
def setting {α : Type} (location : List String) (fields : Fields) (name : String)
    (check : List String → Node → Checked α) (default : α) : Checked α :=
  match Fields.get? fields (Config.camelCase name), Fields.get? fields name with
  | some node, _ => check (location ++ [Config.camelCase name]) node
  | none, some node => check (location ++ [name]) node
  | none, none => .ok default

/-- The settings of the HTTP client module. -/
def checkAxios (location : List String) (fields : Fields) : Checked AxiosSettings :=
  let default : AxiosSettings := {}
  let read {α : Type} := setting (α := α) location fields
  (((((Checked.apply (.ok AxiosSettings.mk)
    (read "generate_axios_config" checkBool default.generate)).apply
    (read "axios_config_path" checkText default.directory)).apply
    (read "base_url_placeholder" checkText default.baseUrl)).apply
    (read "include_interceptors" checkBool default.interceptors)).apply
    (read "skip_dependency_check" checkBool default.skipDependencyCheck))

/-- The settings of the hooks. -/
def checkHooks (location : List String) (fields : Fields) : Checked HookSettings :=
  let default : HookSettings := {}
  let read {α : Type} := setting (α := α) location fields
  ((((((Checked.apply (.ok HookSettings.mk)
    (read "generate_hooks" checkBool default.generate)).apply
    (read "hooks_dir" checkText default.directory)).apply
    (read "hook_pattern" checkPattern default.pattern)).apply
    (read "include_headers" checkBool default.headers)).apply
    (read "use_fetch" checkBool default.useFetch)).apply
    (read "skip_dependency_check" checkBool default.skipDependencyCheck))

/-- The settings in an object. Unknown names are left aside. -/
def ofFields (fields : Fields) : Checked Settings :=
  let default : Settings := { source := "" }
  let read {α : Type} := setting (α := α) [] fields
  ((((((((Checked.apply (.ok Settings.mk)
    (read "swagger_url" checkSource default.source)).apply
    (read "output_dir" checkText default.output)).apply
    (read "models_dir" checkText default.models)).apply
    (read "endpoints_dir" checkText default.endpoints)).apply
    (read "generate_index" checkBool default.index)).apply
    (read "strip_base_path" checkBasePaths default.basePaths)).apply
    (read "axios_config" (checkGroup "AxiosConfigOptions" checkAxios) default.axios)).apply
    (read "hooks" (checkGroup "HookOptions" checkHooks) default.hooks))

/-- The key and the value of an item that stands for a member: two items of a list, two characters
of a text, or two keys of an object. -/
def pairOf : Node → Except Failure (Node × Node)
  | .list [k, v] => .ok (k, v)
  | .object [(k, _), (v, _)] => .ok (.ofKey k, .ofKey v)
  | .text s => match s.toList with
    | [k, v] => .ok (.text (String.ofList [k]), .text (String.ofList [v]))
    | _ => .error .notAPair
  | .list _ | .object _ => .error .notAPair
  | _ => .error .notIterable

/-- The member that an item stands for. -/
def memberOf (item : Node) : Except Failure (Key × Node) := do
  let (k, v) ← pairOf item
  match k.key? with
  | some key => return (key, v)
  | none => throw .notAScalar

/-- The members that a node other than an object stands for: those of its items, which a list or a
text has. -/
def membersOf : Node → Except Failure Fields
  | .list items => (items.mapM memberOf).map Fields.ofList
  | .text s => (s.toList.mapM fun c => memberOf (.text (String.ofList [c]))).map Fields.ofList
  | _ => .error .notIterable

/-- The members of a layer. Those of an object have names in one style; a layer that counts as false
is empty; of any other, `otherwise` says what its members are. -/
def layer (otherwise : Node → Except Failure Fields) (node : Node) : Except Failure Fields :=
  if node.isTrue then
    match Config.snakeKeys node with
    | .object fields => .ok fields
    | node => otherwise node
  else .ok []

/-- The settings of a file with overrides laid over them. A source has to be named. -/
def ofLayers (file overrides : Node) : Except Failure Settings := do
  let base ← layer membersOf file
  let additions ← layer (fun _ => .error .notAnObject) overrides
  let fields := Config.overlay base additions
  if !((Fields.get? fields "swagger_url").any Node.isTrue) then
    throw (.config .noSource)
  (ofFields fields).mapError fun es => .config (.invalid es)

end Settings

end ClientGen
