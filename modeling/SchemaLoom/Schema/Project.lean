/-
  Schemas: enums, helpers and tables, and the project that holds them.

  A helper is a named group of columns that tables spread into their own.
-/
import SchemaLoom.Schema.Column

namespace SchemaLoom

/-- The three kinds of entities of a schema. -/
inductive EntityKind where
  | enum
  | helper
  | table
  deriving DecidableEq

namespace EntityKind

/-- The kinds in their order. -/
def all : List EntityKind := [.enum, .helper, .table]

/-- The name of a kind. -/
def name : EntityKind → String
  | enum => "enum"
  | helper => "helper"
  | table => "table"

/-- The directory that holds the modules of a kind. -/
def directory : EntityKind → String
  | enum => "enums"
  | helper => "helpers"
  | table => "tables"

end EntityKind

/-- An enum and its values, in order. -/
structure EnumDef where
  name : String
  values : List String
  deriving DecidableEq

/-- A named group of columns. -/
structure HelperDef where
  name : String
  columns : List Column
  deriving DecidableEq

/-- A table. -/
structure TableDef where
  name : String
  /-- The name in the database, if it is not derived from the name. -/
  dbName : Option String := none
  columns : List Column := []
  /-- The helpers that the table spreads, in order. -/
  helperReferences : List String := []
  compositePrimaryKey : List String := []
  deriving DecidableEq

/-- A schema and where it is generated. -/
structure Schema where
  outputDir : String
  enums : List EnumDef := []
  helpers : List HelperDef := []
  tables : List TableDef := []
  overwrite : Option Bool := none
  deriving DecidableEq

/-- The name of an enum in the database. -/
def EnumDef.databaseName (e : EnumDef) : String := Text.snakeCase e.name

namespace TableDef

/-- The name of a table in the database. -/
def databaseName (t : TableDef) : String := t.dbName.getD (Text.snakeCase t.name)

/-- The variable that the table is bound to. -/
def variableName (t : TableDef) : String := tableVariable t.name

/-- The composite primary key that counts: one of at least two columns. -/
def compositeKey (t : TableDef) : Option (List String) :=
  if 2 ≤ t.compositePrimaryKey.length then some t.compositePrimaryKey else none

/-- The first column of a name. -/
def column? (t : TableDef) (name : String) : Option Column :=
  t.columns.find? fun c => c.name == name

end TableDef

namespace Schema

/-- The first enum of a name. -/
def enum? (s : Schema) (name : String) : Option EnumDef := s.enums.find? fun e => e.name == name

/-- The first helper of a name. -/
def helper? (s : Schema) (name : String) : Option HelperDef :=
  s.helpers.find? fun h => h.name == name

/-- The first table of a name. -/
def table? (s : Schema) (name : String) : Option TableDef :=
  s.tables.find? fun t => t.name == name

/-- Whether the schema has no entities. -/
def isEmpty (s : Schema) : Bool := s.enums.isEmpty && s.helpers.isEmpty && s.tables.isEmpty

end Schema

/-! ## Canonical forms -/

/-- The form that an enum has after being generated and read back. -/
def EnumDef.canonical (e : EnumDef) : EnumDef := { e with values := e.values.map Text.canonicalValue }

/-- The form that a helper has after being generated and read back. -/
def HelperDef.canonical (h : HelperDef) : HelperDef :=
  { h with columns := h.columns.map Column.canonical }

/-- The form that a table has after being generated and read back: a database
    name that would be derived anyway is dropped, and so is a composite key of
    fewer than two columns. -/
def TableDef.canonical (t : TableDef) : TableDef :=
  { t with
    dbName := t.dbName.filter fun db => db != Text.snakeCase t.name
    columns := t.columns.map Column.canonical
    compositePrimaryKey := t.compositeKey.getD [] }

/-- The form that a schema has after being generated and read back. -/
def Schema.canonical (s : Schema) : Schema :=
  { s with
    enums := s.enums.map EnumDef.canonical
    helpers := s.helpers.map HelperDef.canonical
    tables := s.tables.map TableDef.canonical }

end SchemaLoom
