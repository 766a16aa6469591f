/-
  The commands and their options.
-/
import SchemaLoom.Change.Policy
import SchemaLoom.CommandLine.Options
import SchemaLoom.Files.Path

namespace SchemaLoom.CommandLine

/-- What a command line asks for. -/
inductive Command where
  | generate (schema : Path) (outputDir : Option String) (overwrite : Bool)
  | read (project : Path) (json : Bool)
  | diff (old new : String) (json : Bool)
  | apply (project : Path) (schema : String) (policy : Policy) (json : Bool)
  | validate (schema : Path)
  | drift (schema project : Path)
  deriving DecidableEq

/-- A command that may be named. -/
structure CommandSpec where
  name : String
  options : List OptionSpec
  /-- The command with the options that were given. -/
  build : Settings → Command

/-- The option that may stand anywhere. -/
def verboseOption : OptionSpec := { name := "verbose", role := .flag, letter := some 'v' }

/-- The option that asks for help. -/
def helpOption : OptionSpec := { name := "help", role := .stop .help, letter := some 'h' }

/-- The option that names a schema, in a role that the command decides. -/
def schemaOption (role : Role) : OptionSpec :=
  { name := "schema", role, environmentName := some "DRIZZLEMOLD_SCHEMA", required := true }

/-- The option that names a project. -/
def projectOption : OptionSpec :=
  { name := "project", role := .path, environmentName := some "DRIZZLEMOLD_PROJECT", required := true }

/-- The option that asks for JSON. -/
def jsonOption : OptionSpec := { name := "json", role := .flag }

/-- The commands. -/
def commands : List CommandSpec := [
  { name := "generate"
    options := [schemaOption .path, { name := "out", role := .text },
      { name := "overwrite", role := .flag }]
    build := fun s => .generate (.ofString (s.value "schema")) (s.lookup "out")
      (s.flag "overwrite") },
  { name := "read"
    options := [projectOption, jsonOption]
    build := fun s => .read (.ofString (s.value "project")) (s.flag "json") },
  { name := "diff"
    options := [{ name := "from", role := .text, required := true },
      { name := "to", role := .text, required := true }, jsonOption]
    build := fun s => .diff (s.value "from") (s.value "to") (s.flag "json") },
  { name := "apply"
    options := [projectOption, schemaOption .text,
      { name := "allow-breaking", role := .flag,
        environmentName := some "DRIZZLEMOLD_ALLOW_BREAKING" },
      { name := "deny-warnings", role := .flag }, { name := "dry-run", role := .flag },
      jsonOption]
    build := fun s => .apply (.ofString (s.value "project")) (s.value "schema")
      { allowBreaking := s.flag "allow-breaking", allowWarning := !s.flag "deny-warnings",
        dryRun := s.flag "dry-run" } (s.flag "json") },
  { name := "validate"
    options := [schemaOption .path]
    build := fun s => .validate (.ofString (s.value "schema")) },
  { name := "drift"
    options := [schemaOption .path, projectOption]
    build := fun s => .drift (.ofString (s.value "schema")) (.ofString (s.value "project")) }]

/-- The environment variables that options may be taken from. -/
def environmentNames : List String :=
  (commands.flatMap fun c => c.options.filterMap OptionSpec.environmentName).eraseDups

/-- Where it ends to ask for help on some topics.  A topic is a command, and
    commands have no commands of their own. -/
def helpOn : List String → Stop
  | [] => .help
  | topic :: others =>
    if topic = "help" || commands.any (fun c => c.name = topic) then
      match others with
      | [] => .help
      | other :: _ => .unknownCommand other
    else .unknownCommand topic

/-- The command that arguments ask for. -/
def Command.ofArguments (environment : String → Option String) (arguments : List String) :
    Except Stop Command := do
  let versionOption : OptionSpec :=
    { name := "version", role := .stop .version, letter := some 'V' }
  let (_, left) ← readOptions [verboseOption, versionOption, helpOption] [] arguments
  match left with
  | [] => .error .noCommand
  | "help" :: topics => .error (helpOn topics)
  | name :: rest =>
    match commands.find? fun c => c.name = name with
    | none => .error (.unknownCommand name)
    | some c =>
      return c.build (← settingsOf (verboseOption :: helpOption :: c.options) environment rest)

end SchemaLoom.CommandLine
