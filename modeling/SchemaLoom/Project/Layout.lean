/-
  Where the modules of a project are.

  A project is a directory with a directory for each kind of entities, in which
  every module has its entity's name.  Each of these directories has an index,
  and so has the project; an index is no module.
-/
import SchemaLoom.Files.System
import SchemaLoom.Schema.Project

namespace SchemaLoom

/-- The name of an index. -/
def indexName : String := "index.ts"

/-- The characters that the name of a module ends with. -/
def moduleSuffix : List Char := ['.', 't', 's']

/-- Whether a file of this name is a module. -/
def isModuleName (name : String) : Bool :=
  moduleSuffix.isSuffixOf name.toList && name != indexName

/-- What a module is named for: the name of its file without the suffix.  There
    must be something before the suffix for it to be one. -/
def moduleStem (name : String) : String :=
  let stem := name.toList.take (name.toList.length - moduleSuffix.length)
  if stem.isEmpty then name else String.ofList stem

/-- The directory of a kind of entities. -/
def kindPath (root : Path) (kind : EntityKind) : Path := root.child kind.directory

/-- The module of an entity. -/
def entityPath (root : Path) (kind : EntityKind) (name : String) : Path :=
  (kindPath root kind).child (name ++ String.ofList moduleSuffix)

/-- A module that is in a project. -/
structure ModuleFile where
  path : Path
  stem : String
  deriving DecidableEq

/-- Why the modules of a kind could not be listed. -/
structure ListingError where
  /-- The directory, as it is listed. -/
  directory : Path
  reason : FileError

/-- The text of an error. -/
def ListingError.message (e : ListingError) : String :=
  "Parse error: Glob error: attempting to read \x60" ++ e.directory.shown ++
    "\x60 resulted in an error: " ++ e.reason.message

section

variable {m : Type → Type} [Monad m] [FileSystem m]

open FileSystem

/-- Whether the path leads to a project: there is an index or a directory for
    some kind of entities. -/
def isProject (root : Path) : m Bool := do
  if (← isThere root).toOption = some true then
    if ← isFile (root.child indexName) then return true
    else EntityKind.all.anyM fun kind => isDirectory (kindPath root kind)
  else return false

/-- The modules of a kind of entities, in the order of their names.  There are
    none if the kind has no directory. -/
def modules (root : Path) (kind : EntityKind) : m (Except ListingError (List ModuleFile)) := do
  match (kindPath root kind).listed with
  | none => return .ok []
  | some dir =>
    if ← isDirectory (kindPath root kind) then
      match ← names (kindPath root kind) with
      | .ok found =>
        let files := (found.filter isModuleName).mergeSort.map fun name =>
          ⟨⟨dir.pieces ++ [name]⟩, moduleStem name⟩
        return .ok (← files.filterM fun file => isFile file.path)
      | .error e => return .error ⟨dir, e⟩
    else return .ok []

end

end SchemaLoom
