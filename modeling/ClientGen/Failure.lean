import ClientGen.Node.Json
import ClientGen.Yaml.Fault

/-!
# Failures

Everything that can end a run early, as causes.

* `DocumentError`: the interface document could not be read, fetched or understood.
* `SettingCause`, `SettingError`: a setting has a value of the wrong kind.
* `ConfigError`: the configuration could not be read or is invalid.
* `Failure`: these, a schema that is nested too deeply, and the faults of malformed input and
  unsuitable names that are not looked for beforehand.
* `Failure.message?`: the wording.
* `Failure.ofJson`, `Failure.ofYaml`: the failures of reading a text.
-/

namespace ClientGen

/-- Why there is no usable interface document. -/
inductive DocumentError where
  /-- The text of the source is not JSON. -/
  | invalidJson (source : String) (fault : Json.SyntaxError)
  /-- The text of the source is not YAML. -/
  | invalidYaml (source : String)
  /-- There is no file at this path. -/
  | notFound (path : String)
  /-- The server answered with a status that is no success. -/
  | status (url : String) (code : Int)
  /-- There was no answer. -/
  | unreachable (url reason : String)
  /-- The document is not an object. -/
  | notAnObject
  /-- The document has no object of paths. -/
  | noPaths
  /-- The document does not say which version of the format it uses. -/
  | noVersion
deriving DecidableEq, Repr

/-- The wording of a document error. -/
def DocumentError.message : DocumentError → String
  | .invalidJson source fault => "Invalid JSON in " ++ source ++ ": " ++ fault.message
  | .invalidYaml source => "Invalid YAML in " ++ source
  | .notFound path => "File not found: " ++ path
  | .status url code => "Failed to fetch spec from " ++ url ++ ": HTTP " ++ toString code
  | .unreachable url reason => "Failed to fetch spec from " ++ url ++ ": " ++ reason
  | .notAnObject => "Invalid spec: document is not a JSON object"
  | .noPaths => "Invalid spec: missing \"paths\" property"
  | .noVersion => "Invalid spec: missing version information"

/-- What is wrong with the value of a setting. -/
inductive SettingCause where
  /-- A text is needed. -/
  | notText
  /-- A truth value is needed. -/
  | notBool
  /-- A truth value is needed, and a word or number was given that stands for none. -/
  | notBoolWord
  /-- A list is needed. -/
  | notList
  /-- One of the named words is needed. -/
  | notPattern
  /-- An object with the settings of this group is needed. -/
  | notGroup (group : String)
  /-- The source is blank. -/
  | blankSource
deriving DecidableEq, Repr

/-- The code of a cause. -/
def SettingCause.code : SettingCause → String
  | .notText => "string_type"
  | .notBool => "bool_type"
  | .notBoolWord => "bool_parsing"
  | .notList => "list_type"
  | .notPattern => "literal_error"
  | .notGroup _ => "model_type"
  | .blankSource => "value_error"

/-- The wording of a cause. -/
def SettingCause.message : SettingCause → String
  | .notText => "Input should be a valid string"
  | .notBool => "Input should be a valid boolean"
  | .notBoolWord => "Input should be a valid boolean, unable to interpret input"
  | .notList => "Input should be a valid list"
  | .notPattern => "Input should be 'separate' or 'combined'"
  | .notGroup group => "Input should be a valid dictionary or instance of " ++ group
  | .blankSource => "Value error, swaggerUrl is required"

/-- A setting with a value of the wrong kind. -/
structure SettingError where
  /-- The way to the setting. -/
  location : List String
  /-- What is wrong. -/
  cause : SettingCause
deriving DecidableEq, Repr

/-- Why there is no usable configuration. -/
inductive ConfigError where
  /-- No source of the document was named. -/
  | noSource
  /-- Some settings have values of the wrong kind. -/
  | invalid (errors : List SettingError)
  /-- The configuration file is not JSON. -/
  | invalidJson (path : String) (fault : Json.SyntaxError)
  /-- The configuration file is not YAML. -/
  | invalidYaml (path : String)
  /-- The ending of the file name tells no format. -/
  | unsupported (suffix : String)
  /-- The configuration file holds something other than an object. -/
  | notAMapping (path : String)
  /-- There is no configuration file at this path. -/
  | notFound (path : String)
deriving DecidableEq, Repr

/-- The wording of a configuration error. -/
def ConfigError.message : ConfigError → String
  | .noSource => "Swagger URL is required. Provide it as an argument or in a config file."
  | .invalid _ => "Invalid configuration"
  | .invalidJson path fault => "Failed to parse config " ++ path ++ ": " ++ fault.message
  | .invalidYaml path => "Failed to parse config " ++ path
  | .unsupported suffix =>
    "Unsupported config file format: " ++ suffix ++ ". Use .json, .yaml or .yml"
  | .notAMapping path => "Config file " ++ path ++ " must contain a mapping"
  | .notFound path => "Config file not found: " ++ path

/-- Everything that can end a run early. -/
inductive Failure where
  /-- There is no usable document. -/
  | document (error : DocumentError)
  /-- There is no usable configuration. -/
  | config (error : ConfigError)
  /-- A schema is nested more deeply than the limit; the origin says where. -/
  | tooDeep (origin : String) (limit : Int)
  /-- A value that has no items stands where items are listed. -/
  | notIterable
  /-- A list or an object stands where a scalar has to tell things apart. -/
  | notAScalar
  /-- Something other than an object stands where a member is looked up. -/
  | notAnObject
  /-- Something other than a text stands where text is taken apart. -/
  | notAText
  /-- A list stands for an object, and one of its items is no pair of a key and a value. -/
  | notAPair
  /-- A text goes beyond a limit of reading. -/
  | unreadable (excess : Excess)
  /-- A number is announced and is not written as numbers are. -/
  | noNumber
  /-- A number is announced and nothing is written. -/
  | emptyNumber
  /-- A truth value is announced, and what is written is no word for one. -/
  | noTruth
  /-- A date that no calendar has. -/
  | noSuchDay
  /-- A date is announced, and what is written does not look like one. -/
  | noDate
  /-- An escape has a code beyond the last character. -/
  | noSuchCharacter
  /-- A number is too large to be worked with. -/
  | numberTooLarge
  /-- The address of a server is not written as addresses are. -/
  | invalidAddress
  /-- The host in the address of a server is coded and stands for no name. -/
  | undecodableHost
  /-- The host in the address of a server cannot be written in ASCII. -/
  | unwritableHost
  /-- The address of a server names no host. -/
  | noHost
  /-- A path starts at the home directory of a user who is not known. -/
  | unknownHome
  /-- A path has a null character, which no path may have. -/
  | nullInPath
  /-- The name of a file or directory is too long. -/
  | nameTooLong
  /-- A directory is needed where a file stands. -/
  | fileInTheWay
  /-- A file is needed where a directory stands. -/
  | directoryInTheWay
  /-- A path leads through a file. -/
  | throughAFile
deriving DecidableEq, Repr

namespace Failure

/-- The wording of the failures that are reported to the user; the others have none. -/
def message? : Failure → Option String
  | .document e => some e.message
  | .config e => some e.message
  | .tooDeep origin limit =>
    some ("Schema nesting deeper than " ++ toString limit ++ " levels at "
      ++ (if origin.isEmpty then "<root>" else origin))
  | _ => none

/-- The failure for a JSON text that is not read; `malformed` says what a text that is not JSON
means. -/
def ofJson (malformed : Json.SyntaxError → Failure) : Json.Refusal → Failure
  | .malformed error => malformed error
  | .beyond excess => .unreadable excess

/-- The failure for a YAML text that is not read; a text that is not YAML means `malformed`. -/
def ofYaml (malformed : Failure) : Yaml.Fault → Failure
  | .malformed => malformed
  | .character => .noSuchCharacter
  | .tooLarge => .numberTooLarge
  | .number => .noNumber
  | .emptyNumber => .emptyNumber
  | .truth => .noTruth
  | .date => .noSuchDay
  | .noDate => .noDate
  | .beyond excess => .unreadable excess

end Failure

end ClientGen
