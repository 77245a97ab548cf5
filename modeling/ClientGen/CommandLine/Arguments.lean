import ClientGen.Node.Basic
import ClientGen.Text.Lines

/-!
# Arguments

What the words after the program's name mean. Options and the source may stand in any order; after a
double hyphen everything is a source.

* `OptionEffect`: what an option does, with the tables `longOptions` and `shortOptions`.
* `Given`: an argument that was understood.
* `Given.ofWords`: all arguments.
* `Command.ofWords`: what is asked for.
-/

namespace ClientGen

/-- What an option does. -/
inductive OptionEffect where
  /-- Sets a setting to the text that follows. -/
  | text (setting : List String)
  /-- Sets a setting to a truth value. -/
  | switch (setting : List String) (value : Bool)
  /-- Adds the base path that follows. -/
  | basePath
  /-- Chooses the pattern that follows for hooks. -/
  | pattern
  /-- Names the configuration file. -/
  | config
  /-- Says more while running. -/
  | verbose
  /-- Asks for help. -/
  | help
  /-- Asks for the version. -/
  | version
deriving DecidableEq, Repr

/-- Does a value follow the option? -/
def OptionEffect.takesValue : OptionEffect → Bool
  | .text _ | .basePath | .pattern | .config => true
  | _ => false

/-- Options by their long names. -/
def longOptions : List (String × OptionEffect) := [
  ("--output", .text ["output_dir"]),
  ("--models", .text ["models_dir"]),
  ("--endpoints", .text ["endpoints_dir"]),
  ("--hooks-dir", .text ["hooks", "hooks_dir"]),
  ("--strip-base-path", .basePath),
  ("--strip", .basePath),
  ("--hook-pattern", .pattern),
  ("--fetch", .switch ["hooks", "use_fetch"] true),
  ("--axios", .switch ["hooks", "use_fetch"] false),
  ("--hooks", .switch ["hooks", "generate_hooks"] true),
  ("--no-hooks", .switch ["hooks", "generate_hooks"] false),
  ("--headers", .switch ["hooks", "include_headers"] true),
  ("--no-headers", .switch ["hooks", "include_headers"] false),
  ("--axios-config", .switch ["axios_config", "generate_axios_config"] true),
  ("--no-axios-config", .switch ["axios_config", "generate_axios_config"] false),
  ("--index", .switch ["generate_index"] true),
  ("--no-index", .switch ["generate_index"] false),
  ("--config", .config),
  ("--verbose", .verbose),
  ("--version", .version),
  ("--help", .help)]

/-- Options by their short names. -/
def shortOptions : List (Char × OptionEffect) := [
  ('o', .text ["output_dir"]),
  ('m', .text ["models_dir"]),
  ('e', .text ["endpoints_dir"]),
  ('c', .config),
  ('v', .version),
  ('h', .help)]

/-- What is wrong with the arguments. -/
inductive UsageError where
  /-- There is no option of this name. -/
  | unknownOption (name : String)
  /-- The value of an option is missing. -/
  | missingValue (name : String)
  /-- An option got a value that takes none. -/
  | unwantedValue (name : String)
  /-- There is no pattern of this name. -/
  | unknownPattern (name : String)
  /-- There are more sources than one. -/
  | extraArguments (names : List String)
deriving DecidableEq, Repr

/-- The wording of a usage error. -/
def UsageError.message : UsageError → String
  | .unknownOption name => "No such option: " ++ name
  | .missingValue name => "Option '" ++ name ++ "' requires an argument."
  | .unwantedValue name => "Option '" ++ name ++ "' does not take a value."
  | .unknownPattern name =>
    "Invalid value for '--hook-pattern': '" ++ name ++ "' is not one of 'separate', 'combined'."
  | .extraArguments names => "Got unexpected extra arguments (" ++ " ".intercalate names ++ ")"

/-- An argument that was understood. -/
inductive Given where
  /-- An option with its value, which is empty if it takes none. -/
  | option (effect : OptionEffect) (value : String)
  /-- Any other argument. -/
  | argument (text : String)
deriving DecidableEq, Repr

/-- What one word with options means: options, and one at its end whose value is the next word. -/
structure OptionWord where
  /-- The options that are complete. -/
  complete : List Given
  /-- The option whose value is the next word, with its name. -/
  open? : Option (String × OptionEffect) := none

namespace OptionWord

/-- The meaning of a long option. A value may follow an equals sign. -/
def ofLong (word : String) : Except UsageError OptionWord :=
  let name := String.ofList (Text.before '=' word.toList)
  let value := (word.toList.drop (name.length + 1))
  let attached := word.toList.contains '='
  match longOptions.lookup name with
  | none => .error (.unknownOption name)
  | some effect =>
    if effect.takesValue then
      if attached then .ok ⟨[.option effect (String.ofList value)], none⟩
      else .ok ⟨[], some (name, effect)⟩
    else if attached then .error (.unwantedValue name)
    else .ok ⟨[.option effect ""], none⟩

/-- The meaning of short options one after another. What follows an option with a value is its
value. -/
def ofShort : List Char → Except UsageError OptionWord
  | [] => .ok ⟨[], none⟩
  | c :: cs =>
    let name := String.ofList ['-', c]
    match shortOptions.lookup c with
    | none => .error (.unknownOption name)
    | some effect =>
      if effect.takesValue then
        if cs.isEmpty then .ok ⟨[], some (name, effect)⟩
        else .ok ⟨[.option effect (String.ofList cs)], none⟩
      else (ofShort cs).map fun w => { w with complete := .option effect "" :: w.complete }

/-- The meaning of a word if it starts with a hyphen and goes on. -/
def ofWord? (word : String) : Option (Except UsageError OptionWord) :=
  match word.toList with
  | '-' :: '-' :: _ => some (ofLong word)
  | '-' :: c :: cs => some (ofShort (c :: cs))
  | _ => none

end OptionWord

/-- The meaning of all words. -/
def Given.ofWords : List String → Except UsageError (List Given)
  | [] => .ok []
  | word :: rest =>
    if word = "--" then .ok (rest.map .argument)
    else match OptionWord.ofWord? word with
      | none => (ofWords rest).map (.argument word :: ·)
      | some read => do
        let w ← read
        match w.open?, rest with
        | none, rest => return w.complete ++ (← ofWords rest)
        | some (name, _), [] => .error (.missingValue name)
        | some (_, effect), value :: rest =>
          return w.complete ++ [.option effect value] ++ (← ofWords rest)

/-- What a run is asked to do. -/
structure Invocation where
  /-- The source of the document. -/
  source : Option String := none
  /-- The configuration file. -/
  config : Option String := none
  /-- The settings that options give. -/
  overrides : Fields := []
  /-- Say more while running. -/
  verbose : Bool := false
deriving Repr

/-- What is asked for. -/
inductive Command where
  /-- Help. -/
  | help
  /-- The version. -/
  | version
  /-- A run. -/
  | generate (invocation : Invocation)
deriving Repr

/-- An object with a value under a chain of keys. -/
def setAt (fields : Fields) : List String → Node → Fields
  | [], _ => fields
  | [key], value => Fields.put fields (.text key) value
  | key :: keys, value =>
    let inner := ((Fields.get? fields key).map Node.fields).getD []
    Fields.put fields (.text key) (.object (setAt inner keys value))

namespace Invocation

/-- Adds what an argument says. The last of several values of an option counts, but base paths are
collected. -/
def add (i : Invocation) : Given → Invocation
  | .argument text => { i with source := some (i.source.getD text) }
  | .option (.text setting) value =>
    { i with overrides := setAt i.overrides setting (.text value) }
  | .option (.switch setting value) _ =>
    { i with overrides := setAt i.overrides setting (.bool value) }
  | .option .basePath value =>
    let known := ((Fields.get? i.overrides "strip_base_path").bind Node.list?).getD []
    { i with overrides :=
        setAt i.overrides ["strip_base_path"] (.list (known ++ [.text value])) }
  | .option .pattern value =>
    { i with overrides := setAt i.overrides ["hooks", "hook_pattern"] (.text value) }
  | .option .config value => { i with config := some value }
  | .option .verbose _ => { i with verbose := true }
  | .option .help _ | .option .version _ => i

/-- The settings that the arguments give, the source among them. -/
def settings (i : Invocation) : Node :=
  .object (match i.source with
    | some source => Fields.put i.overrides (.text "swagger_url") (.text source)
    | none => i.overrides)

end Invocation

namespace Command

/-- The command that an argument asks for before all others are looked at. -/
def ofGiven? : Given → Option Command
  | .option .help _ => some .help
  | .option .version _ => some .version
  | _ => none

/-- The patterns that may be chosen. -/
def patterns : List String := ["separate", "combined"]

/-- The pattern that counts, if it is none of those that may be chosen. -/
def badPattern? (given : List Given) : Option String :=
  (given.reverse.findSome? fun g => match g with
    | .option .pattern value => some value
    | _ => none).filter fun p => !patterns.contains p

/-- The arguments that are no options. -/
def sources (given : List Given) : List String :=
  given.filterMap fun g => match g with
    | .argument text => some text
    | _ => none

/-- What the words after the program's name ask for. Every option has to be known before anything
is done; then help and version come first. -/
def ofWords (words : List String) : Except UsageError Command := do
  let given ← Given.ofWords words
  match given.findSome? ofGiven? with
  | some command => return command
  | none =>
    match badPattern? given, sources given with
    | some name, _ => .error (.unknownPattern name)
    | none, _ :: extra :: more => .error (.extraArguments (extra :: more))
    | none, _ => return .generate (given.foldl Invocation.add {})

end Command

end ClientGen
