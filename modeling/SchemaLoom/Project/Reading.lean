/-
  Reading a project back into a schema.

  Every module is read on its own: one that cannot be read is told as an error
  and hides nothing of the others, and so is a directory that cannot be listed.
  Only a path that leads to no project fails as a whole.
-/
import SchemaLoom.Project.Layout
import SchemaLoom.Source.Entity

namespace SchemaLoom

/-- Why a module, or a project, could not be read. -/
inductive ReadFault where
  | notAProject (root : Path)
  | unlisted (e : ListingError)
  | unreadable (e : FileError)
  | malformed (e : Source.Error)

/-- The text of a fault. -/
def ReadFault.message : ReadFault → String
  | notAProject root =>
    "Project path " ++ root.shown ++ " does not exist or contains no generated schema"
  | unlisted e => e.message
  | unreadable e => "Failed to read file: " ++ e.message
  | malformed e => e.message

/-- A fault and the module or the directory that it is about, if it is about one. -/
structure ReadError where
  file : Option Path
  fault : ReadFault

/-- The text of an error, with what it is about. -/
def ReadError.located (e : ReadError) : String :=
  match e.file with
  | some file => file.shown ++ ": " ++ e.fault.message
  | none => e.fault.message

/-- What was read of a project. -/
structure ReadResult where
  schema : Schema
  errors : List ReadError := []
  totalFiles : Nat := 0
  /-- When the index of the project was last written, if that is known. -/
  lastModified : Option String := none

/-- Whether everything was read. -/
def ReadResult.success (r : ReadResult) : Bool := r.errors.isEmpty

/-- The texts of the errors without their modules. -/
def ReadResult.reasons (r : ReadResult) : String :=
  "; ".intercalate (r.errors.map fun e => e.fault.message)

/-- Adds the entity that a module declares. -/
def Schema.addModule (s : Schema) (kind : EntityKind) (name text : String) :
    Except Source.Error Schema :=
  match kind with
  | .enum => return { s with enums := s.enums ++ [← Source.readEnum text] }
  | .helper => return { s with helpers := s.helpers ++ [← Source.readHelper text] }
  | .table => return { s with tables := s.tables ++ [← Source.readTable name text] }

/-- A module and what its file holds. -/
structure FetchedModule where
  kind : EntityKind
  file : ModuleFile
  text : Except FileError String

namespace ReadResult

/-- What is known before any module is read. -/
def start (root : Path) : ReadResult := { schema := { outputDir := root.shown } }

/-- What is read of a path that leads to no project. -/
def notAProject (root : Path) : ReadResult :=
  { start root with errors := [⟨none, .notAProject root⟩] }

/-- Reads one module more. -/
def add (r : ReadResult) (f : FetchedModule) : ReadResult :=
  let counted := { r with totalFiles := r.totalFiles + 1 }
  let failed (fault : ReadFault) : ReadResult :=
    { counted with errors := r.errors ++ [⟨some f.file.path, fault⟩] }
  match f.text with
  | .error e => failed (.unreadable e)
  | .ok text =>
    match r.schema.addModule f.kind f.file.stem text with
    | .error e => failed (.malformed e)
    | .ok schema => { counted with schema }

/-- What is read of these modules. -/
def ofModules (root : Path) (fetched : List FetchedModule) : ReadResult :=
  fetched.foldl add (start root)

/-- Reads the modules of one kind more, or tells why they could not be listed. -/
def addKind (root : Path) (r : ReadResult) :
    EntityKind × Except ListingError (List FetchedModule) → ReadResult
  | (_, .ok fetched) => fetched.foldl add r
  | (kind, .error e) => { r with errors := r.errors ++ [⟨some (kindPath root kind), .unlisted e⟩] }

end ReadResult

variable {m : Type → Type} [Monad m] [FileSystem m]

/-- The modules of a kind of entities with what their files hold. -/
def fetchModules (root : Path) (kind : EntityKind) :
    m (Except ListingError (List FetchedModule)) := do
  match ← modules root kind with
  | .ok files =>
    return .ok (← files.mapM fun file => return ⟨kind, file, ← FileSystem.readText file.path⟩)
  | .error e => return .error e

/-- Reads a project. -/
def readProject (root : Path) : m ReadResult := do
  if ← isProject root then
    let kinds ← EntityKind.all.mapM fun kind => return (kind, ← fetchModules root kind)
    let lastModified ← FileSystem.modified (root.child indexName)
    return { kinds.foldl (ReadResult.addKind root) (.start root) with lastModified }
  else return .notAProject root

end SchemaLoom
