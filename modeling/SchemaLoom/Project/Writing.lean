/-
  Writing the modules of a project.

  Files that are there are only replaced when that is asked for, except for the
  indexes, which always tell what modules there are.  What goes wrong with one
  file is told in the report and stops nothing.
-/
import SchemaLoom.Module.Batch
import SchemaLoom.Project.Layout

namespace SchemaLoom

/-- Why a file was not written. -/
inductive WriteFault where
  | notGenerated (kind : EntityKind) (name : String) (e : GenerationError)
  | notWritten (e : FileError)
  /-- The modules that an index is to tell could not be listed. -/
  | notListed (e : ListingError)
  /-- An index that is out of date could not be removed. -/
  | notRemoved (e : FileError)

/-- The text of a failed operation on files. -/
def ioText (e : FileError) : String := "I/O error: " ++ e.message

/-- The text of a fault. -/
def WriteFault.message : WriteFault → String
  | notGenerated kind name e => kind.name ++ " '" ++ name ++ "': " ++ e.fullMessage
  | notWritten e => ioText e
  | notListed e => e.message
  | notRemoved e => e.message

/-- A fault and the file that it is about. -/
structure WriteError where
  path : Path
  fault : WriteFault

/-- What became of some files. -/
structure WriteReport where
  written : List Path := []
  /-- The files that were there already and are left alone. -/
  skipped : List Path := []
  removed : List Path := []
  errors : List WriteError := []

namespace WriteReport

/-- Whether nothing went wrong. -/
def success (r : WriteReport) : Bool := r.errors.isEmpty

/-- One report behind another. -/
def append (a b : WriteReport) : WriteReport where
  written := a.written ++ b.written
  skipped := a.skipped ++ b.skipped
  removed := a.removed ++ b.removed
  errors := a.errors ++ b.errors

instance : Append WriteReport := ⟨append⟩

/-- The report of a file to be written. -/
def ofWrite (path : Path) : Except FileError Bool → WriteReport
  | .ok true => { written := [path] }
  | .ok false => { skipped := [path] }
  | .error e => { errors := [⟨path, .notWritten e⟩] }

/-- The report of an index to be removed, which need not be there. -/
def ofRemoval (path : Path) : Except FileError Unit → WriteReport
  | .ok _ => { removed := [path] }
  | .error .noSuchFile => {}
  | .error e => { errors := [⟨path, .notRemoved e⟩] }

end WriteReport

/-- The line of an index for the module at a path as seen from it. -/
def exportLine (path : String) : String := "export * from './" ++ path ++ ".js';\n"

variable {m : Type → Type} [Monad m] [FileSystem m]

open FileSystem

/-- Writes the module of an entity. -/
def writeEntity (root : Path) (tables : List TableDef) (overwrite : Bool) (e : GeneratedEntity) :
    m WriteReport := do
  let path := entityPath root e.kind e.name
  let text := e.render ((ImportScope.within e.kind).withTables tables)
  return .ofWrite path (← writeText path text overwrite)

/-- Writes the modules of entities. -/
def writeEntities (root : Path) (entities : List GeneratedEntity) (tables : List TableDef)
    (overwrite : Bool) : m WriteReport :=
  entities.foldlM (fun r e => return r ++ (← writeEntity root tables overwrite e)) {}

/-- Writes an index, or removes it if there is nothing to tell. -/
def writeIndex (path : Path) (lines : List String) : m WriteReport := do
  if lines.isEmpty then return .ofRemoval path (← remove path)
  else return .ofWrite path (← writeText path (String.join lines) true)

/-- Writes the index of a kind of entities, and tells whether there are any.  An
    index stays as it is if the modules cannot be listed. -/
def writeKindIndex (root : Path) (kind : EntityKind) : m (WriteReport × Bool) := do
  match ← modules root kind with
  | .ok files =>
    let lines := files.map fun f => exportLine f.stem
    return (← writeIndex ((kindPath root kind).child indexName) lines, !lines.isEmpty)
  | .error e => return ({ errors := [⟨kindPath root kind, .notListed e⟩] }, false)

/-- Writes all indexes of a project from the modules that are there. -/
def writeIndexes (root : Path) : m WriteReport := do
  let reports ← EntityKind.all.mapM fun kind => return (kind, ← writeKindIndex root kind)
  let lines := (reports.filter fun r => r.2.2).map fun r => exportLine (r.1.directory ++ "/index")
  let own ← writeIndex (root.child indexName) lines
  return reports.foldr (fun r rest => r.2.1 ++ rest) own

/-- Generates and writes a whole project. -/
def Schema.writeProject (s : Schema) : m WriteReport := do
  let root := Path.ofString s.outputDir
  let batch := s.generateBatch
  let failed : WriteReport :=
    { errors := batch.errors.map fun e =>
        ⟨entityPath root e.kind e.name, .notGenerated e.kind e.name e.fault⟩ }
  let entities ← writeEntities root batch.entities s.tables (s.overwrite.getD false)
  return failed ++ entities ++ (← writeIndexes root)

/-- Removes the module of an entity.  Tells whether there was one. -/
def removeEntity (root : Path) (kind : EntityKind) (name : String) : m (Except FileError Bool) :=
  removeIfThere (entityPath root kind name)

end SchemaLoom
