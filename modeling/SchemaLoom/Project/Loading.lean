/-
  Schemas from where they are kept.

  A source names a definition file (`json:`) or a project (`project:`).  Several
  sources make one schema, in which no entity may come from two of them.
-/
import SchemaLoom.Project.Reading
import SchemaLoom.Schema.Json

namespace SchemaLoom

/-- Where a schema is kept. -/
inductive SchemaSource where
  | definition (file : Path)
  | project (root : Path)

namespace SchemaSource

/-- The sources by what they begin with. -/
def kinds : List (String × (Path → SchemaSource)) :=
  [("json:", .definition), ("project:", .project)]

/-- The rest of a text that begins in a certain way. -/
def rest? (start s : String) : Option String :=
  (start.toList.isPrefixOf? s.toList).map String.ofList

/-- The source that a text names. -/
def ofString? (s : String) : Option SchemaSource :=
  kinds.findSome? fun k => (rest? k.1 s).map fun rest => k.2 (Path.ofString rest)

end SchemaSource

/-- Why there is no schema to work on. -/
inductive LoadError where
  | noSources
  | unknownSource (source : String)
  | unreadableFile (file : Path) (e : FileError)
  | malformed (e : Json.Error)
  | unreadableProject (root : Path) (details : String)
  /-- Two sources have an entity of this kind and name. -/
  | duplicate (kind : EntityKind) (name : String)

/-- The text of an error. -/
def LoadError.message : LoadError → String
  | noSources => "Parse error: No schema sources provided"
  | unknownSource source =>
    "Parse error: Unknown schema source prefix: " ++ source ++ ". Use 'json:' for schema definition files or 'project:' for generated projects."
  | unreadableFile file e => "Parse error: Failed to read " ++ file.shown ++ ": " ++ e.message
  | malformed e => "JSON error: " ++ e.message
  | unreadableProject root details =>
    "Parse error: Failed to read project " ++ root.shown ++ ": " ++ details
  | duplicate kind name =>
    "Parse error: Duplicate " ++ kind.name ++ " \"" ++ name ++ "\" from multiple sources"

namespace Schema

/-- Adds the elements of a list one by one, unless their name is there. -/
def addAll {α : Type} (kind : EntityKind) (name : α → String) (there new : List α) :
    Except LoadError (List α) :=
  new.foldlM (fun all a =>
    if all.any fun b => name b == name a then .error (.duplicate kind (name a))
    else .ok (all ++ [a])) there

/-- Adds the entities of another schema. -/
def addSchema (s t : Schema) : Except LoadError Schema := do
  let enums ← addAll .enum EnumDef.name s.enums t.enums
  let helpers ← addAll .helper HelperDef.name s.helpers t.helpers
  let tables ← addAll .table TableDef.name s.tables t.tables
  return { s with enums, helpers, tables }

/-- One schema with the entities of all, kept where the first one is. -/
def mergeAll : List Schema → Except LoadError Schema
  | [] => .error .noSources
  | first :: others => others.foldlM addSchema first

end Schema

variable {m : Type → Type} [Monad m] [FileSystem m]

/-- The schema of a definition file. -/
def loadDefinition (file : Path) : m (Except LoadError Schema) := do
  match ← FileSystem.readText file with
  | .ok text => return (Schema.ofJson text).mapError .malformed
  | .error e => return .error (.unreadableFile file e)

/-- The schema of a project, which must be readable as a whole. -/
def loadProject (root : Path) : m (Except LoadError Schema) := do
  let read ← readProject root
  if read.success then return .ok read.schema
  else return .error (.unreadableProject root ("; ".intercalate (read.errors.map ReadError.located)))

/-- The schema that a text names the source of. -/
def loadSource (source : String) : m (Except LoadError Schema) := do
  match SchemaSource.ofString? source with
  | some (.definition file) => loadDefinition file
  | some (.project root) => loadProject root
  | none => return .error (.unknownSource source)

/-- The schemas of sources, up to the first failure. -/
def loadEach : List String → m (Except LoadError (List Schema))
  | [] => return .ok []
  | source :: sources => do
    match ← loadSource source with
    | .error e => return .error e
    | .ok s => return (← loadEach sources).map (s :: ·)

/-- The schema of one or more sources. -/
def loadSources (sources : List String) : m (Except LoadError Schema) := do
  return (← loadEach sources).bind Schema.mergeAll

end SchemaLoom
