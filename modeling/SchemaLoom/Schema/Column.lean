/-
  Columns of schema definitions.

  A column names its type, or the enum that backs it.  `Column.kind` resolves
  the two into exactly one kind, or says why it cannot; `checkIdentifiers`
  checks every name that a generated module would hold unquoted.
-/
import SchemaLoom.Schema.ColumnType
import SchemaLoom.Schema.Default
import SchemaLoom.Text.Casing
import SchemaLoom.Text.Identifier

namespace SchemaLoom

/-- The column of another table that a column refers to. -/
structure ColumnReference where
  table : String
  column : String
  deriving DecidableEq

/-- The optional parts of a column. -/
structure ColumnOptions where
  notNull : Bool := false
  primaryKey : Bool := false
  default : Option DefaultValue := none
  length : Option UInt32 := none
  /-- The enum that backs the column. -/
  enumName : Option String := none
  references : Option ColumnReference := none
  deriving DecidableEq

/-- A column of a schema definition. -/
structure Column where
  name : String
  /-- The name of the column type, as it is written. -/
  typeName : Option String := none
  options : ColumnOptions := {}
  deriving DecidableEq

/-- The kind of a column: one of the scalar types, or an enum. -/
inductive ColumnKind where
  | scalar (type : ColumnType) (length : Option UInt32)
  | enumeration (name : String)
  deriving DecidableEq

/-- How a kind is shown in descriptions. -/
def ColumnKind.shown : ColumnKind → String
  | scalar type (some length) => type.name ++ "(" ++ toString length.toNat ++ ")"
  | scalar type none => type.name
  | enumeration name => "enum " ++ name

/-- What is wrong with a column. -/
inductive ColumnError where
  | missingName
  | unsupportedType (typeName column : String)
  | missingType (column : String)
  | enumWithoutValues (column : String)
  | invalidIdentifier (identifier column : String)
  deriving DecidableEq

/-- The wording of each fault. -/
def ColumnError.message : ColumnError → String
  | missingName => "Column name is mandatory."
  | unsupportedType typeName column =>
    "Unsupported type '" ++ typeName ++ "' for column '" ++ column ++ "'"
  | missingType column =>
    "Type is required for column '" ++ column ++ "': provide 'type' or 'enumValues'"
  | enumWithoutValues column =>
    "Column '" ++ column ++ "' has type 'enum' but no 'enumValues'"
  | invalidIdentifier identifier column =>
    "'" ++ identifier ++ "' in column '" ++ column ++ "' is not a valid identifier"

/-- The variable that a generated table is bound to: its name in lower case. -/
def tableVariable (tableName : String) : String := Text.lowerText tableName

/-- Whether a name is empty or blank. -/
def isBlankName (name : String) : Bool := name.toList.all Text.isBlank

namespace Column

/-! ## Building columns -/

/-- A column of a scalar type. -/
def ofType (name : String) (type : ColumnType) : Column := { name, typeName := some type.name }

/-- A column backed by an enum. -/
def ofEnum (name enumName : String) : Column := { name, options := { enumName := some enumName } }

/-- The column that must not be null. -/
def notNull (c : Column) : Column := { c with options := { c.options with notNull := true } }

/-- The column as a primary key. -/
def primaryKey (c : Column) : Column :=
  { c with options := { c.options with primaryKey := true } }

/-- The column with a default value. -/
def withDefault (c : Column) (d : DefaultValue) : Column :=
  { c with options := { c.options with default := some d } }

/-- The column with a length. -/
def withLength (c : Column) (n : UInt32) : Column :=
  { c with options := { c.options with length := some n } }

/-- The column that refers to a column of a table. -/
def withReference (c : Column) (table column : String) : Column :=
  { c with options := { c.options with references := some ⟨table, column⟩ } }

/-! ## Kinds, names and canonical forms -/

/-- Whether the column is backed by an enum. -/
def isEnum (c : Column) : Bool := c.options.enumName.isSome

/-- The kind of a column.  An enum wins over a type. -/
def kind (c : Column) : Except ColumnError ColumnKind :=
  if isBlankName c.name then .error .missingName
  else
    match c.options.enumName, c.typeName with
    | some enumName, _ => .ok (.enumeration enumName)
    | none, none => .error (.missingType c.name)
    | none, some typeName =>
      match ColumnType.ofName? typeName with
      | none => .error (.unsupportedType typeName c.name)
      | some .enum => .error (.enumWithoutValues c.name)
      | some type => .ok (.scalar type (if type.supportsLength then c.options.length else none))

/-- The names of a column that a module would hold unquoted, in order, each
    with its test: the column's own name, the enum, and the table and column
    referred to. -/
def unquotedNames (c : Column) : List (String × Bool) :=
  (c.name, Text.isIdentifier c.name) ::
    ((c.options.enumName.map fun e => (e, Text.isBindingName e)).toList ++
      match c.options.references with
      | none => []
      | some r =>
        [(r.table, Text.isBindingName (tableVariable r.table)),
          (r.column, Text.isIdentifier r.column)])

/-- Refuses the first name of a column that cannot stand unquoted. -/
def checkIdentifiers (c : Column) : Except ColumnError Unit :=
  match c.unquotedNames.find? fun n => !n.2 with
  | some n => .error (.invalidIdentifier n.1 c.name)
  | none => .ok ()

/-- Every name that stands unquoted passes its test. -/
theorem checkIdentifiers_eq_ok_iff {c : Column} :
    c.checkIdentifiers = .ok () ↔ ∀ n ∈ c.unquotedNames, n.2 = true := by
  rw [checkIdentifiers]
  cases hf : c.unquotedNames.find? fun n => !n.2 with
  | none => simpa using List.find?_eq_none.1 hf
  | some n =>
    refine iff_of_false (fun h => by cases h) fun h => ?_
    have hn : n.2 = false := by simpa using List.find?_some hf
    exact absurd (hn.symm.trans (h n (List.mem_of_find?_eq_some hf))) (by decide)

/-- An enum default takes the form in which enum values are read back. -/
def canonicalDefault : DefaultValue → DefaultValue
  | .text s => .text (Text.canonicalValue s)
  | d => d

/-- The type, length and default that a column keeps when it is generated and
    read back: an enum column has neither type nor length, and only types that
    support a length keep it. -/
def canonicalType (c : Column) : Column :=
  if c.isEnum then
    { c with
      typeName := none
      options := { c.options with
        length := none
        default := c.options.default.map canonicalDefault } }
  else
    match c.typeName.bind ColumnType.ofName? with
    | some type =>
      if type.supportsLength then c else { c with options := { c.options with length := none } }
    | none => c

/-- The form that a column has after being generated and read back. -/
def canonical (c : Column) : Column :=
  let t := c.canonicalType
  { t with options := { t.options with
      references := t.options.references.map fun r => { r with table := tableVariable r.table } } }

end Column

end SchemaLoom
