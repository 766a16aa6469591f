/-
  What is done with schemas and projects.

  Schemas are compared in their canonical form, so a definition and the project
  generated from it never differ by casing alone.
-/
import SchemaLoom.Change.Report
import SchemaLoom.Drift
import SchemaLoom.Project.Loading
import SchemaLoom.Project.Materialize
import SchemaLoom.Validation

namespace SchemaLoom

/-- Why a task could not be done. -/
inductive TaskError where
  | load (e : LoadError)
  | invalidSource (source : String)
  | unreadable (project : Path) (errors : List ReadError)
  | invalid (issues : List Issue)

/-- The text of an error. -/
def TaskError.message : TaskError → String
  | load e => "Parse error: " ++ e.message
  | invalidSource source => "Invalid schema source: " ++ source
  | unreadable project errors =>
    "Failed to read project " ++ project.shown ++ ": " ++ toString errors.length ++ " error(s)"
  | invalid issues => "Schema validation failed with " ++ toString issues.length ++ " error(s)"

/-- What became of a schema that was generated. -/
structure GenerateResult where
  outputDir : Path
  report : WriteReport
  issues : List Issue

variable {m : Type → Type} [Monad m] [FileSystem m]

/-- The schema of sources, all of which must name what they are before any is
    looked at. -/
def sourcesSchema (sources : List String) : m (Except TaskError Schema) := do
  match sources.find? fun s => (SchemaSource.ofString? s).isNone with
  | some source => return .error (.invalidSource source)
  | none => return (← loadSources sources).mapError .load

/-- The schema of a project. -/
def projectSchema (root : Path) : m (Except TaskError Schema) := do
  let read ← readProject root
  return if read.success then .ok read.schema else .error (.unreadable root read.errors)

/-- Generates the project of a definition file, perhaps in another directory. -/
def generateProject (file : Path) (outputDir : Option String) (overwrite : Option Bool) :
    m (Except TaskError GenerateResult) := ExceptT.run do
  let s ← ExceptT.mk (return (← loadDefinition file).mapError .load)
  let s := { s with
    outputDir := outputDir.getD s.outputDir
    overwrite := overwrite <|> s.overwrite }
  let report ← ExceptT.lift s.writeProject
  return { outputDir := Path.ofString s.outputDir, report, issues := s.validate }

/-- Compares the schemas of two lists of sources. -/
def compareSources (old new : List String) : m (Except TaskError Comparison) := ExceptT.run do
  let old ← ExceptT.mk (sourcesSchema old)
  let new ← ExceptT.mk (sourcesSchema new)
  return old.canonical.compare new.canonical

/-- Makes the permitted changes that lead from a project to a valid schema. -/
def applySources (root : Path) (sources : List String) (p : Policy) :
    m (Except TaskError ApplyResult) := ExceptT.run do
  let target ← ExceptT.mk (sourcesSchema sources)
  let current ← ExceptT.mk (projectSchema root)
  if hasErrors target.validate then throw (.invalid target.validate)
  ExceptT.lift (applyChanges root p (current.canonical.changesTo target.canonical))

/-- The issues of the schema of sources. -/
def validateSources (sources : List String) : m (Except TaskError (List Issue)) := do
  return (← sourcesSchema sources).map Schema.validate

/-- How far a project is from the schema of sources. -/
def driftOfSources (sources : List String) (root : Path) :
    m (Except TaskError DriftReport) := ExceptT.run do
  let expected ← ExceptT.mk (sourcesSchema sources)
  let actual ← ExceptT.mk (projectSchema root)
  return expected.driftOf actual

/-- How far a project is from a schema. -/
def Schema.driftOfProject (expected : Schema) (root : Path) :
    m (Except LoadError DriftReport) := do
  let read ← readProject root
  return if read.success then .ok (expected.driftOf read.schema)
    else .error (.unreadableProject root read.reasons)

end SchemaLoom
