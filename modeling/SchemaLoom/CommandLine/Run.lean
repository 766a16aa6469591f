/-
  Carrying out command lines.

  What a command has to tell goes to the standard output; issues, errors and
  the reason why it failed go to the standard error.
-/
import SchemaLoom.Change.Json
import SchemaLoom.CommandLine.Command
import SchemaLoom.Project.Tasks

namespace SchemaLoom

open Json (Value)

/-- The JSON form of an error. -/
def ReadError.toJson (e : ReadError) : Value :=
  .object [
    ("file", (e.file.map fun file => .string file.shown).getD .null),
    ("message", .string e.fault.message)]

/-- The JSON form of what was read at the time `time`. -/
def ReadResult.toJson (r : ReadResult) (time : String) : Value :=
  .object [
    ("success", .bool r.success), ("schema", r.schema.toJson),
    ("errors", .array (r.errors.map ReadError.toJson)),
    ("metadata", .object [
      ("lastModified", .string (r.lastModified.getD time)), ("totalFiles", .nat r.totalFiles)])]

namespace CommandLine

/-- What a command line leads to. -/
structure Outcome where
  code : UInt32 := 0
  stdout : String := ""
  stderr : String := ""
  deriving DecidableEq

/-- Lines, each with its end. -/
def textOf (lines : List String) : String := String.join (lines.map fun line => line ++ "\n")

/-- The outcome with a failure at its end. -/
def Outcome.fail (o : Outcome) (reason : String) : Outcome :=
  { o with code := 1, stderr := o.stderr ++ "Error: " ++ reason ++ "\n" }

/-- The outcome, which is a failure if there is a reason. -/
def Outcome.failIf (o : Outcome) (failed : Bool) (reason : String) : Outcome :=
  if failed then o.fail reason else o

/-- The outcome of something that may have failed. -/
def Outcome.ofExcept {α : Type} (show' : α → Outcome) : Except TaskError α → Outcome
  | .ok a => show' a
  | .error e => ({} : Outcome).fail e.message

/-- The reason of a failure and what it is the cause of. -/
def causedBy (what cause : String) : String :=
  what ++ "\n\nCaused by:\n    " ++
    String.ofList (cause.toList.flatMap fun c => if c = '\n' then "\n    ".toList else [c])

/-- The label and the text of an issue. -/
def issueLine (label : Severity → String) (i : Issue) : String :=
  label i.severity ++ " [" ++ i.rule.name ++ "]: " ++ i.message

/-- A severity as the first word of a line. -/
def capitalName : Severity → String
  | .error => "Error"
  | .warning => "Warning"

/-- A change as an item of a list. -/
def changeItem (c : Change) : String := "[" ++ c.impact.name ++ "] " ++ c.description

/-! ## Commands -/

/-- Shows what became of a schema that was generated. -/
def showGenerated (r : GenerateResult) : Outcome :=
  let shown : Outcome := {
    stdout := textOf (r.report.written.map (fun p => "wrote " ++ p.shown) ++
      r.report.skipped.map fun p => "skipped " ++ p.shown ++ " (exists)")
    stderr := textOf (r.issues.map (issueLine capitalName) ++
      r.report.errors.map fun e => "error: " ++ e.fault.message) }
  shown.failIf (!r.report.success)
    (toString r.report.errors.length ++ " entity error(s) during generation")

/-- Shows what was read of a project. -/
def showRead (json : Bool) (time : String) (r : ReadResult) : Outcome :=
  let shown : Outcome :=
    if json then { stdout := textOf [(r.toJson time).pretty] }
    else {
      stdout := textOf [r.schema.toJson.pretty]
      stderr := textOf (r.errors.map fun e => "error: " ++ e.located) }
  shown.failIf (!r.success) (toString r.errors.length ++ " file(s) could not be read")

/-- Shows a comparison. -/
def showComparison (json : Bool) (c : Comparison) : Outcome :=
  { stdout := if json then textOf [c.toJson.pretty] else c.report }

/-- Shows what became of some changes. -/
def showApplied (json : Bool) (time : String) (r : ApplyResult) : Outcome :=
  let files (f : MaterializeReport → List Path) := ((r.materialized.map f).getD []).map Path.shown
  let shown : Outcome := {
    stdout := textOf (
      if json then [(r.toJson time).pretty]
      else
        r.applied.map (fun c => (if r.dryRun then "would apply " else "applied ") ++ changeItem c) ++
        r.rejected.map (fun c => "rejected " ++ changeItem c) ++
        (files MaterializeReport.filesWritten).map ("wrote " ++ ·) ++
        (files MaterializeReport.filesRemoved).map ("removed " ++ ·)) }
  match r.error with
  | some e => shown.fail ("apply failed: " ++ e)
  | none => shown

/-- Shows the issues of a schema. -/
def showIssues (issues : List Issue) : Outcome :=
  let shown : Outcome := {
    stdout := textOf (
      if issues.isEmpty then ["No issues found."] else issues.map (issueLine Severity.name)) }
  shown.failIf (hasErrors issues) "schema validation failed"

/-- Shows how far a project is from its schema. -/
def showDrift (project : Path) : Except TaskError DriftReport → Outcome
  | .error e => ({} : Outcome).fail (causedBy ("checking drift of " ++ project.shown) e.message)
  | .ok r =>
    if r.hasDrift then {
      code := 1
      stdout := textOf (
        ("Drift detected: expected " ++ r.expectedFingerprint ++ ", found " ++
          r.actualFingerprint) :: r.differences.map fun c => "  " ++ changeItem c) }
    else { stdout := textOf ["No drift detected (" ++ r.expectedFingerprint ++ ")."] }

variable {m : Type → Type} [Monad m] [FileSystem m]

/-- The text that names a definition file as a source. -/
def definitionSource (file : Path) : String := "json:" ++ file.shown

/-- Carries out a command at the time `time`. -/
def Command.run (time : String) : Command → m Outcome
  | generate schema outputDir overwrite => do
    let overwrite := if overwrite then some true else none
    return .ofExcept showGenerated (← generateProject schema outputDir overwrite)
  | read project json => return showRead json time (← readProject project)
  | diff old new json => return .ofExcept (showComparison json) (← compareSources [old] [new])
  | apply project schema policy json =>
    return .ofExcept (showApplied json time) (← applySources project [schema] policy)
  | validate schema =>
    return .ofExcept showIssues (← validateSources [definitionSource schema])
  | drift schema project =>
    return showDrift project (← driftOfSources [definitionSource schema] project)

/-! ## Command lines -/

/-- The name and the version of the program. -/
def versionLine : String := "drizzlemold 0.4.2"

/-- How the program is used. -/
def usage : String :=
  "Usage: drizzlemold [--verbose] <" ++ "|".intercalate (commands.map CommandSpec.name) ++
    "> [OPTIONS]"

/-- What is wrong with a command line. -/
def Stop.message : Stop → String
  | help | version => ""
  | noCommand => "a command is required"
  | unknownCommand name => "unrecognized command '" ++ name ++ "'"
  | unknownOption name => "unexpected option '" ++ name ++ "'"
  | unexpectedArgument argument => "unexpected argument '" ++ argument ++ "'"
  | unexpectedValue name => "no value is expected for '--" ++ name ++ "'"
  | missingValue name => "a value is required for '--" ++ name ++ "'"
  | invalidValue name value => "invalid value '" ++ value ++ "' for '--" ++ name ++ "'"
  | repeated name => "'--" ++ name ++ "' cannot be used multiple times"
  | missing name => "'--" ++ name ++ "' is required"

/-- What arguments lead to that ask for no command. -/
def Stop.outcome : Stop → Outcome
  | help => { stdout := textOf [usage] }
  | version => { stdout := textOf [versionLine] }
  | wrong => { code := 2, stderr := textOf ["error: " ++ wrong.message, "", usage] }

/-- Carries out a command line at the time `time`. -/
def run (environment : String → Option String) (time : String) (arguments : List String) :
    m Outcome :=
  match Command.ofArguments environment arguments with
  | .ok command => command.run time
  | .error stop => return stop.outcome

end CommandLine

end SchemaLoom
