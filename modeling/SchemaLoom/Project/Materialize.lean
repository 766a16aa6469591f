/-
  Making changes in a project.

  The project is read, the changes are merged into what was read, and every
  entity that they touch is generated anew.  Only if all of that succeeds are
  files removed and written.
-/
import SchemaLoom.Change.Footprint
import SchemaLoom.Change.Gate
import SchemaLoom.Change.Merge
import SchemaLoom.Project.Reading
import SchemaLoom.Project.Writing

namespace SchemaLoom

/-- Why changes could not be made in a project. -/
inductive MaterializeError where
  | unreadable (project : Path) (reasons : String)
  | merge (e : MergeError)
  | missing (ref : EntityRef)
  | notGenerated (e : GenerationError)
  | notRemoved (e : FileError)
  | notWritten (fault : WriteFault)

/-- The text of an error. -/
def MaterializeError.message : MaterializeError → String
  | unreadable project reasons =>
    "Apply error: Cannot materialize into " ++ project.shown ++ ": " ++ reasons
  | merge e => "Apply error: " ++ e.message
  | missing ref =>
    "Apply error: " ++ ref.kind.name ++ " " ++ ref.name ++ " is missing after merge"
  | notGenerated e => e.fullMessage
  | notRemoved e => ioText e
  | notWritten fault => "Apply error: " ++ fault.message

/-- Generates an entity of a schema. -/
def Schema.regenerate (s : Schema) (ref : EntityRef) : Except MaterializeError GeneratedEntity :=
  let found : Option (Except GenerationError GeneratedEntity) :=
    match ref.kind with
    | .enum => (s.enum? ref.name).map EnumDef.generate
    | .helper => (s.helper? ref.name).map HelperDef.generate
    | .table => (s.table? ref.name).map TableDef.generate
  match found with
  | some generated => generated.mapError .notGenerated
  | none => .error (.missing ref)

/-- What is to be done to make some changes. -/
structure Plan where
  removed : List EntityRef
  entities : List GeneratedEntity
  tables : List TableDef

/-- What is to be done to make changes to a schema, if they can be merged and
    everything that they touch can be generated. -/
def Plan.ofChanges (s : Schema) (changes : List Change) : Except MaterializeError Plan := do
  let merged ← (s.merge changes).mapError .merge
  let footprint := Footprint.ofChanges changes
  let entities ← (inEntityOrder footprint.affected).mapM merged.regenerate
  return { removed := inEntityOrder footprint.removed, entities, tables := merged.tables }

variable {m : Type → Type} [Monad m] [FileSystem m]

/-- Removes the modules of entities, and tells which there were.  The first
    failure ends it. -/
def removeEntities (root : Path) : List EntityRef → m (Except FileError (List Path))
  | [] => return .ok []
  | ref :: refs => do
    match ← removeEntity root ref.kind ref.name with
    | .error e => return .error e
    | .ok there =>
      let rest ← removeEntities root refs
      return rest.map fun paths => if there then entityPath root ref.kind ref.name :: paths else paths

/-- Carries out what is to be done. -/
def Plan.carryOut (p : Plan) (root : Path) : m (Except MaterializeError MaterializeReport) := do
  match ← removeEntities root p.removed with
  | .error e => return .error (.notRemoved e)
  | .ok removed =>
    let written ← writeEntities root p.entities p.tables true
    let all := written ++ (← writeIndexes root)
    match all.errors with
    | e :: _ => return .error (.notWritten e.fault)
    | [] => return .ok { filesWritten := all.written, filesRemoved := removed ++ all.removed }

/-- Makes changes in a project. -/
def materialize (root : Path) (changes : List Change) :
    m (Except MaterializeError MaterializeReport) := do
  let read ← readProject root
  if read.success then
    match Plan.ofChanges read.schema changes with
    | .ok plan => plan.carryOut root
    | .error e => return .error e
  else return .error (.unreadable root read.reasons)

/-- Makes the changes that a policy permits in a project. -/
def applyChanges (root : Path) (p : Policy) (changes : List Change) : m ApplyResult :=
  p.gate root changes fun permitted =>
    return (← materialize root permitted).mapError MaterializeError.message

end SchemaLoom
