/-
  Import lines.

  There is one line for each module that is imported from.  Where the importing
  module lies decides how the others are reached; a module that holds every
  entity imports from libraries only.
-/
import SchemaLoom.Module.Import

namespace SchemaLoom

/-- Where a generated module lies, and what is known about the other modules. -/
structure ImportScope where
  /-- The kind of entities in its directory; `none` for the one module that
      holds every entity. -/
  location : Option EntityKind := none
  /-- The names of the tables whose modules may be imported. -/
  tableNames : List String := []

namespace ImportScope

/-- The scope of a module in the directory of a kind. -/
def within (kind : EntityKind) : ImportScope := { location := some kind }

/-- The scope of the one module that holds every entity. -/
def singleModule : ImportScope := {}

/-- Makes tables known. -/
def withTables (scope : ImportScope) (tables : List TableDef) : ImportScope :=
  { scope with tableNames := scope.tableNames ++ tables.map TableDef.name }

/-- The module that binds a table variable: that of the last table known by the
    variable, or one named like it. -/
def tableModule (scope : ImportScope) (binding : String) : String :=
  (scope.tableNames.reverse.find? fun name => tableVariable name == binding).getD binding

end ImportScope

/-- The module of the column library. -/
def pgCoreModule : String := "drizzle-orm/pg-core"

/-- The module of the `sql` tag. -/
def sqlModule : String := "drizzle-orm"

/-- The path from a module in the directory of one kind to a module of
    another. -/
def siblingPath (location kind : EntityKind) (stem : String) : String :=
  if location = kind then "./" ++ stem ++ ".js"
  else "../" ++ kind.directory ++ "/" ++ stem ++ ".js"

/-- The line that imports names from a module. -/
def importLine (names path : String) : String :=
  "import \x7b " ++ names ++ " \x7d from '" ++ path ++ "';"

namespace ImportSet

/-- The names imported from the column library. -/
def pgCoreNames (s : ImportSet) : List String :=
  s.items.filterMap fun
    | .pgCore name => some name
    | _ => none

/-- The lines that import from libraries. -/
def libraryLines (s : ImportSet) : List String :=
  (if s.pgCoreNames.isEmpty then []
    else [importLine (", ".intercalate s.pgCoreNames) pgCoreModule]) ++
  if s.contains .sql then [importLine "sql" sqlModule] else []

/-- The lines that import entities into a module in the directory of
    `location`, tables last. -/
def entityLines (s : ImportSet) (scope : ImportScope) (location : EntityKind) : List String :=
  s.items.filterMap fun
    | .enum name => some (importLine name (siblingPath location .enum name))
    | .helper name => some (importLine name (siblingPath location .helper name))
    | .table binding =>
      some (importLine binding (siblingPath location .table (scope.tableModule binding)))
    | .pgCore _ | .sql => none

/-- The import lines of a set. -/
def lines (s : ImportSet) (scope : ImportScope) : List String :=
  s.libraryLines ++
    match scope.location with
    | none => []
    | some location => s.entityLines scope location

/-- The text of the import lines. -/
def render (s : ImportSet) (scope : ImportScope) : String := "\n".intercalate (s.lines scope)

end ImportSet

end SchemaLoom
