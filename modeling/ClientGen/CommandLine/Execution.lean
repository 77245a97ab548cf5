import ClientGen.CommandLine.Arguments
import ClientGen.Run

/-!
# Executing commands

* `Ending`: how the execution of a command ends.
* `Ending.exitCode`, `Ending.output`, `Ending.complaint`: what the user sees of it.
* `Run.invocation`: a run with the settings of the command line and the configuration file.
* `execute`: a whole execution.
-/

namespace ClientGen

/-- The version of the program. -/
def programVersion : String := "1.0.0"

/-- The name of the program. -/
def programName : String := "swagger-codegen"

/-- How the execution of a command ends. -/
inductive Ending where
  /-- The arguments were not understood. -/
  | usage (error : UsageError)
  /-- Help was given. -/
  | help
  /-- The version was given. -/
  | version
  /-- The run failed. -/
  | failed (failure : Failure)
  /-- The run wrote code. -/
  | done (settings : Settings) (summary : Summary)
deriving Repr

/-- What is told about a run. -/
def Summary.text (s : Summary) (settings : Settings) : String :=
  let files := [(WriteOutcome.created, "created"), (.updated, "updated"), (.skipped, "unchanged")].map
    fun (outcome, word) => toString (s.count outcome) ++ " " ++ word
  "\n".intercalate [
    "Code generation completed.",
    "  Output directory: " ++ settings.output,
    "  Tags: " ++ toString s.tags,
    "  Endpoints: " ++ toString s.operations,
    "  Model declarations: " ++ toString s.declarations,
    "  Files: " ++ ", ".intercalate files,
    ""]

/-- The help text. -/
def helpText : String := "\n".intercalate [
  "Usage: " ++ programName ++ " [OPTIONS] [SOURCE]",
  "",
  "  Generate TypeScript models, endpoints and React hooks from an OpenAPI/Swagger",
  "  document. SOURCE is a URL or a path; it may instead come from a config file.",
  "",
  "Options:",
  "  -o, --output TEXT             Output directory (default: ./src/generated).",
  "  -m, --models TEXT             Models subdirectory (default: models).",
  "  -e, --endpoints TEXT          Endpoints subdirectory (default: endpoints).",
  "  --hooks-dir TEXT              Hooks subdirectory (default: hooks).",
  "  --strip-base-path, --strip TEXT",
  "                                Base path to strip from paths. Repeatable.",
  "  --hook-pattern [separate|combined]",
  "                                One hook per operation, or one per tag.",
  "  --fetch / --axios             Use fetch instead of axios in hooks.",
  "  --hooks / --no-hooks          Generate React hooks.",
  "  --headers / --no-headers      Accept extra request headers in hooks.",
  "  --axios-config / --no-axios-config",
  "                                Generate the axios instance module.",
  "  --index / --no-index          Generate index files.",
  "  -c, --config TEXT             Path to config file.",
  "  --verbose                     Debug logging.",
  "  -v, --version                 Show the version and exit.",
  "  -h, --help                    Show this message and exit.",
  ""]

namespace Ending

/-- The exit code. -/
def exitCode : Ending → Nat
  | .usage _ => 2
  | .failed _ => 1
  | _ => 0

/-- What is printed. -/
def output : Ending → String
  | .help => helpText
  | .version => programName ++ ", version " ++ programVersion ++ "\n"
  | .done settings summary => summary.text settings
  | _ => ""

/-- What is printed about an error. Failures without a wording say nothing. -/
def complaint : Ending → String
  | .usage error => "Error: " ++ error.message ++ "\n"
  | .failed failure => match failure.message? with
    | some message => "Error: " ++ message ++ "\n"
    | none => ""
  | _ => ""

end Ending

/-- The settings of an invocation: those of the configuration file with those of the options laid
over them. -/
def Invocation.load (i : Invocation) (t : FileTree) : Except Failure Settings := do
  let file ← Config.load t i.config
  Settings.ofLayers ((file.map Node.object).getD .null) i.settings

/-- A run as it is asked for. -/
def Run.invocation (server : String → Response) (i : Invocation) : Run (Settings × Summary) := do
  let settings ← ofExcept (i.load (← get).tree)
  return (settings, ← Run.generate server settings none)

/-- Executes what some words after the program's name ask for. -/
def execute (server : String → Response) (words : List String) : StateM Workspace Ending :=
  match Command.ofWords words with
  | .error error => pure (.usage error)
  | .ok .help => pure .help
  | .ok .version => pure .version
  | .ok (.generate i) => do
    match ← (Run.invocation server i).run with
    | .ok (settings, summary) => return .done settings summary
    | .error failure => return .failed failure

end ClientGen
