/-
  Checks of a whole schema.

  Entities are checked one by one when they are generated; these rules find the
  mistakes that show when entities refer to each other.
-/
import SchemaLoom.Schema.Project

namespace SchemaLoom

/-- How bad an issue is. -/
inductive Severity where
  | error
  | warning
  deriving DecidableEq

/-- The name of a severity. -/
def Severity.name : Severity → String
  | error => "error"
  | warning => "warning"

/-- The rules that a schema may break. -/
inductive Rule where
  | duplicateEntity
  | duplicateTableVariable
  | duplicateColumn
  | invalidIdentifier
  | invalidColumn
  | unknownEnum
  | unknownReferenceTable
  | unknownReferenceColumn
  | unknownHelper
  | ignoredCompositeKey
  | unknownCompositeKeyColumn
  deriving DecidableEq

/-- The name of a rule. -/
def Rule.name : Rule → String
  | duplicateEntity => "duplicate_entity"
  | duplicateTableVariable => "duplicate_table_variable"
  | duplicateColumn => "duplicate_column"
  | invalidIdentifier => "invalid_identifier"
  | invalidColumn => "invalid_column"
  | unknownEnum => "unknown_enum"
  | unknownReferenceTable => "unknown_reference_table"
  | unknownReferenceColumn => "unknown_reference_column"
  | unknownHelper => "unknown_helper"
  | ignoredCompositeKey => "ignored_composite_key"
  | unknownCompositeKeyColumn => "unknown_composite_key_column"

/-- A key of one column is ignored, every other broken rule is an error. -/
def Rule.severity : Rule → Severity
  | ignoredCompositeKey => .warning
  | _ => .error

/-- A broken rule, and where. -/
structure Issue where
  rule : Rule
  message : String
  deriving DecidableEq

/-- The severity of an issue. -/
def Issue.severity (i : Issue) : Severity := i.rule.severity

/-- Whether some issue is an error. -/
def hasErrors (issues : List Issue) : Bool := issues.any fun i => i.severity = .error

/-- A name in double quotes. -/
def inQuotes (s : String) : String := "\"" ++ s ++ "\""

/-- The texts that occur more than once, each once, in their order. -/
def repeated (names : List String) : List String :=
  (names.eraseDups.filter fun n => 1 < names.count n).mergeSort fun a b => !decide (b < a)

/-! ## Names -/

/-- The names of the entities of each kind. -/
def Schema.namesOf (s : Schema) : EntityKind → List String
  | .enum => s.enums.map EnumDef.name
  | .helper => s.helpers.map HelperDef.name
  | .table => s.tables.map TableDef.name

/-- Entities that share a name. -/
def duplicateEntities (s : Schema) : List Issue :=
  EntityKind.all.flatMap fun kind =>
    (repeated (s.namesOf kind)).map fun name =>
      ⟨.duplicateEntity, kind.name ++ " " ++ inQuotes name ++ " is defined more than once"⟩

/-- Tables that are bound to the variable of an earlier table of another name;
    `seen` are the names of the earlier tables. -/
def duplicateVariables (seen : List String) : List TableDef → List Issue
  | [] => []
  | t :: rest =>
    let clash := seen.find? fun other =>
      tableVariable other == t.variableName && other != t.name
    (clash.map fun other => (⟨.duplicateTableVariable,
      "Tables " ++ inQuotes other ++ " and " ++ inQuotes t.name ++
        " both generate the variable " ++ inQuotes t.variableName⟩ : Issue)).toList ++
      duplicateVariables (seen ++ [t.name]) rest

/-- Entities whose names cannot be declared. -/
def invalidNames (s : Schema) : List Issue :=
  EntityKind.all.flatMap fun kind =>
    ((s.namesOf kind).filter fun name => !Text.isBindingName name).map fun name =>
      ⟨.invalidIdentifier, kind.name ++ " name " ++ inQuotes name ++ " is not a valid identifier"⟩

/-- Tables with proper names whose variables cannot be declared. -/
def invalidVariables (s : Schema) : List Issue :=
  (s.tables.filter fun t => Text.isBindingName t.name && !Text.isBindingName t.variableName).map
    fun t => ⟨.invalidIdentifier,
      "Table " ++ inQuotes t.name ++ " generates the reserved variable " ++
        inQuotes t.variableName⟩

/-! ## Columns -/

/-- The helpers that a table spreads, as far as they are defined. -/
def Schema.spreadHelpers (s : Schema) (t : TableDef) : List HelperDef :=
  t.helperReferences.filterMap s.helper?

/-- The names of the columns of a table, those of its helpers included. -/
def Schema.columnNames (s : Schema) (t : TableDef) : List String :=
  t.columns.map Column.name ++
    (s.spreadHelpers t).flatMap fun h => h.columns.map Column.name

/-- The table that a reference names, by its variable. -/
def Schema.referencedTable? (s : Schema) (r : ColumnReference) : Option TableDef :=
  s.tables.find? fun t => t.variableName == tableVariable r.table

/-- An enum that is not defined. -/
def unknownEnum (s : Schema) (owner : String) (c : Column) : List Issue :=
  match c.options.enumName with
  | none => []
  | some enumName =>
    if (s.enum? enumName).isSome then []
    else [⟨.unknownEnum, "Column " ++ inQuotes (owner ++ "." ++ c.name) ++
      " uses undefined enum " ++ inQuotes enumName⟩]

/-- A reference to a table or a column that is not defined. -/
def unknownReference (s : Schema) (owner : String) (c : Column) : List Issue :=
  match c.options.references with
  | none => []
  | some r =>
    let column := "Column " ++ inQuotes (owner ++ "." ++ c.name)
    match s.referencedTable? r with
    | none => [⟨.unknownReferenceTable, column ++ " references undefined table " ++
        inQuotes r.table⟩]
    | some t =>
      if (s.columnNames t).contains r.column then []
      else [⟨.unknownReferenceColumn, column ++ " references undefined column " ++
        inQuotes (r.table ++ "." ++ r.column)⟩]

/-- The fault of a column as an issue of its owner. -/
def columnIssue (rule : Rule) (label : String) : Except ColumnError α → List Issue
  | .ok _ => []
  | .error e => [⟨rule, label ++ ": " ++ e.message⟩]

/-- The issues of one column. -/
def columnIssues (s : Schema) (label owner : String) (c : Column) : List Issue :=
  columnIssue .invalidColumn label c.kind ++
    columnIssue .invalidIdentifier label c.checkIdentifiers ++
    unknownEnum s owner c ++ unknownReference s owner c

/-- The issues of the columns of a helper or a table. -/
def columnsIssues (s : Schema) (kind : EntityKind) (owner : String) (columns : List Column) :
    List Issue :=
  let label := kind.name ++ " " ++ inQuotes owner
  (repeated (columns.map Column.name)).map (fun name =>
      ⟨.duplicateColumn, label ++ " declares column " ++ inQuotes name ++ " more than once"⟩) ++
    columns.flatMap (columnIssues s label owner)

/-! ## Tables -/

/-- Helpers that are spread but not defined. -/
def unknownHelpers (s : Schema) (t : TableDef) : List Issue :=
  (t.helperReferences.filter fun h => (s.helper? h).isNone).map fun h =>
    ⟨.unknownHelper, "Table " ++ inQuotes t.name ++ " spreads undefined helper " ++ inQuotes h⟩

/-- Columns of helpers that the table has itself. -/
def collidingColumns (s : Schema) (t : TableDef) : List Issue :=
  (s.spreadHelpers t).flatMap fun h =>
    (h.columns.filter fun c => (t.columns.map Column.name).contains c.name).map fun c =>
      ⟨.duplicateColumn, "Table " ++ inQuotes t.name ++ " column " ++ inQuotes c.name ++
        " collides with helper " ++ inQuotes h.name⟩

/-- A composite key of one column, or of columns that are not defined. -/
def compositeKeyIssues (s : Schema) (t : TableDef) : List Issue :=
  match t.compositePrimaryKey with
  | [] => []
  | [_] => [⟨.ignoredCompositeKey, "Table " ++ inQuotes t.name ++
      " composite primary key has a single column and will be ignored"⟩]
  | key =>
    (key.filter fun c => !(s.columnNames t).contains c).map fun c =>
      ⟨.unknownCompositeKeyColumn, "Table " ++ inQuotes t.name ++
        " composite primary key names undefined column " ++ inQuotes c⟩

/-- The issues of a table. -/
def tableIssues (s : Schema) (t : TableDef) : List Issue :=
  columnsIssues s .table t.name t.columns ++ unknownHelpers s t ++ collidingColumns s t ++
    compositeKeyIssues s t

/-- The issues of a schema. -/
def Schema.validate (s : Schema) : List Issue :=
  duplicateEntities s ++ duplicateVariables [] s.tables ++ invalidNames s ++ invalidVariables s ++
    s.helpers.flatMap (fun h => columnsIssues s .helper h.name h.columns) ++
    s.tables.flatMap (tableIssues s)

end SchemaLoom
