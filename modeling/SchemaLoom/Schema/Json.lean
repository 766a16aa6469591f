/-
  The JSON form of schemas.

  Flags that are false, empty options, absent values and empty lists of
  references are left out; on reading, what is left out gets its default, and
  unknown members are ignored.
-/
import SchemaLoom.Json.Buffered
import SchemaLoom.Schema.Project

namespace SchemaLoom

open Json (Value Decoder Field)

variable {m : Type → Type} [Decoder m]

/-- The member `name`, if there is a value for it. -/
def optionalMember (name : String) (v : Option Value) : List (String × Value) :=
  (v.map fun v => (name, v)).toList

/-- The member `name`, if the flag is set. -/
def flagMember (name : String) (b : Bool) : List (String × Value) :=
  if b then [(name, .bool true)] else []

/-! ## Columns -/

/-- The JSON form of a reference. -/
def ColumnReference.toJson (r : ColumnReference) : Value :=
  .object [("table", .string r.table), ("column", .string r.column)]

/-- Reads a reference. -/
def ColumnReference.decode : m ColumnReference :=
  Decoder.record "struct ColumnReference"
    [⟨"table", .required, fun r => return { r with table := ← Decoder.string }⟩,
      ⟨"column", .required, fun r => return { r with column := ← Decoder.string }⟩]
    ⟨"", ""⟩

/-- Reads a default value. -/
def DefaultValue.decode : m DefaultValue := do
  match DefaultValue.ofJson? (← Decoder.value) with
  | .ok d => pure d
  | .error message => Decoder.refuse (.refused message)

/-- The members of the JSON form of the options. -/
def ColumnOptions.members (o : ColumnOptions) : List (String × Value) :=
  flagMember "notNull" o.notNull ++ flagMember "primaryKey" o.primaryKey ++
    optionalMember "default" (o.default.map DefaultValue.toJson) ++
    optionalMember "length" (o.length.map fun n => .nat n.toNat) ++
    optionalMember "enumValues" (o.enumName.map .string) ++
    optionalMember "references" (o.references.map ColumnReference.toJson)

/-- Reads the options of a column. -/
def ColumnOptions.decode : m ColumnOptions :=
  Decoder.record "struct ColumnOptions"
    [⟨"notNull", .defaulted, fun o => return { o with notNull := ← Decoder.boolean }⟩,
      ⟨"primaryKey", .defaulted, fun o => return { o with primaryKey := ← Decoder.boolean }⟩,
      ⟨"default", .defaulted, fun o =>
        return { o with default := ← Decoder.optional DefaultValue.decode }⟩,
      ⟨"length", .defaulted, fun o =>
        return { o with length := (← Decoder.optional Json.unsigned32).map UInt32.ofNat }⟩,
      ⟨"enumValues", .defaulted, fun o =>
        return { o with enumName := ← Decoder.optional Decoder.string }⟩,
      ⟨"references", .defaulted, fun o =>
        return { o with references := ← Decoder.optional ColumnReference.decode }⟩]
    {}

/-- The JSON form of a column. -/
def Column.toJson (c : Column) : Value :=
  .object (("name", .string c.name) ::
    (optionalMember "type" (c.typeName.map .string) ++
      optionalMember "options"
        (if c.options = {} then none else some (.object c.options.members))))

/-- Reads a column. -/
def Column.decode : m Column :=
  Decoder.record "struct ColumnDefinition"
    [⟨"name", .required, fun c => return { c with name := ← Decoder.string }⟩,
      ⟨"type", .defaulted, fun c =>
        return { c with typeName := ← Decoder.optional Decoder.string }⟩,
      ⟨"options", .defaulted, fun c => return { c with options := ← ColumnOptions.decode }⟩]
    { name := "" }

/-! ## Entities -/

/-- The JSON form of an enum. -/
def EnumDef.toJson (e : EnumDef) : Value :=
  .object [("name", .string e.name), ("values", .strings e.values)]

/-- Reads an enum. -/
def EnumDef.decode : m EnumDef :=
  Decoder.record "struct EnumDefinition"
    [⟨"name", .required, fun e => return { e with name := ← Decoder.string }⟩,
      ⟨"values", .required, fun e => return { e with values := ← Decoder.list Decoder.string }⟩]
    ⟨"", []⟩

/-- The JSON form of a helper. -/
def HelperDef.toJson (h : HelperDef) : Value :=
  .object [("name", .string h.name), ("columns", .array (h.columns.map Column.toJson))]

/-- Reads a helper. -/
def HelperDef.decode : m HelperDef :=
  Decoder.record "struct HelperDefinition"
    [⟨"name", .required, fun h => return { h with name := ← Decoder.string }⟩,
      ⟨"columns", .required, fun h =>
        return { h with columns := ← Decoder.list Column.decode }⟩]
    ⟨"", []⟩

/-- A list of names, left out when it is empty. -/
def namesMember (name : String) (names : List String) : List (String × Value) :=
  if names.isEmpty then [] else [(name, .strings names)]

/-- The JSON form of a table. -/
def TableDef.toJson (t : TableDef) : Value :=
  .object (("name", .string t.name) ::
    (optionalMember "dbName" (t.dbName.map .string) ++
      ("columns", .array (t.columns.map Column.toJson)) ::
        (namesMember "helperReferences" t.helperReferences ++
          namesMember "compositePrimaryKey" t.compositePrimaryKey)))

/-- Reads a table. -/
def TableDef.decode : m TableDef :=
  Decoder.record "struct TableDefinition"
    [⟨"name", .required, fun t => return { t with name := ← Decoder.string }⟩,
      ⟨"dbName", .defaulted, fun t =>
        return { t with dbName := ← Decoder.optional Decoder.string }⟩,
      ⟨"columns", .defaulted, fun t =>
        return { t with columns := ← Decoder.list Column.decode }⟩,
      ⟨"helperReferences", .defaulted, fun t =>
        return { t with helperReferences := ← Decoder.list Decoder.string }⟩,
      ⟨"compositePrimaryKey", .defaulted, fun t =>
        return { t with compositePrimaryKey := ← Decoder.list Decoder.string }⟩]
    { name := "" }

/-! ## Schemas -/

/-- The JSON form of a schema. -/
def Schema.toJson (s : Schema) : Value :=
  .object (("outputDir", .string s.outputDir) ::
    ("enums", .array (s.enums.map EnumDef.toJson)) ::
    ("helpers", .array (s.helpers.map HelperDef.toJson)) ::
    ("tables", .array (s.tables.map TableDef.toJson)) ::
    optionalMember "overwrite" (s.overwrite.map .bool))

/-- Reads a schema. -/
def Schema.decode : m Schema :=
  Decoder.record "struct ProjectSchema"
    [⟨"outputDir", .required, fun s => return { s with outputDir := ← Decoder.string }⟩,
      ⟨"enums", .defaulted, fun s => return { s with enums := ← Decoder.list EnumDef.decode }⟩,
      ⟨"helpers", .defaulted, fun s =>
        return { s with helpers := ← Decoder.list HelperDef.decode }⟩,
      ⟨"tables", .defaulted, fun s =>
        return { s with tables := ← Decoder.list TableDef.decode }⟩,
      ⟨"overwrite", .defaulted, fun s =>
        return { s with overwrite := ← Decoder.optional Decoder.boolean }⟩]
    { outputDir := "" }

/-- The schema of a JSON text. -/
def Schema.ofJson (text : String) : Except Json.Error Schema := Json.Reader.run Schema.decode text

end SchemaLoom
