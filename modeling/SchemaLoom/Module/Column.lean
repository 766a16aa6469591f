/-
  Columns as they are written in generated modules, such as

      email: varchar('email', { length: 255 }).notNull()

  A constructor is followed by the qualifiers of the column in a fixed order.
-/
import SchemaLoom.Module.Import

namespace SchemaLoom

/-- A column as an entry of an object literal, what it needs in scope, and the
    variables of the tables that it refers to. -/
structure EncodedColumn where
  fragment : String
  imports : ImportSet
  referencedTables : List String
  deriving DecidableEq

/-- The configuration of a constructor: the length of a string, and the mode of
    big integers. -/
def configText? : ColumnType → Option UInt32 → Option String
  | .string, some length => some ("\x7b length: " ++ toString length.toNat ++ " \x7d")
  | .bigint, _ => some "\x7b mode: 'number' \x7d"
  | _, _ => none

/-- The call that declares a column of a kind. -/
def constructorText (name : String) : ColumnKind → String
  | .enumeration enumName => enumName ++ "(" ++ Text.quote name ++ ")"
  | .scalar type length =>
    match configText? type length with
    | some config => type.constructor ++ "(" ++ Text.quote name ++ ", " ++ config ++ ")"
    | none => type.constructor ++ "(" ++ Text.quote name ++ ")"

/-- A default value.  The default of an enum column is written like the values
    of the enum. -/
def defaultText (isEnum : Bool) : DefaultValue → String
  | .boolean b => if b then "true" else "false"
  | .integer i => Json.integerText i.toInt
  | .call function => "sql`" ++ function ++ "()`"
  | .text s => Text.quote (if isEnum then Text.pascalCase s else s)

/-- The qualifiers of a column, in order. -/
def qualifiersText (o : ColumnOptions) : String :=
  (if o.primaryKey then ".primaryKey()" else "") ++
  (if o.notNull then ".notNull()" else "") ++
  (match o.default with
    | some d => ".default(" ++ defaultText o.enumName.isSome d ++ ")"
    | none => "") ++
  match o.references with
  | some r => ".references(() => " ++ tableVariable r.table ++ "." ++ r.column ++ ")"
  | none => ""

/-- What the constructor of a kind needs in scope. -/
def ColumnKind.neededImport : ColumnKind → Import
  | .enumeration name => .enum name
  | .scalar type _ => .pgCore type.constructor

/-- What the options of a column need in scope. -/
def ColumnOptions.imports (o : ColumnOptions) : List Import :=
  (match o.default with
    | some (.call _) => [.sql]
    | _ => []) ++
  match o.references with
  | some r => [.table (tableVariable r.table)]
  | none => []

namespace Column

/-- The variables of the tables that a column refers to. -/
def referencedTables (c : Column) : List String :=
  (c.options.references.map fun r => tableVariable r.table).toList

/-- Writes a column, if it has a kind and proper names. -/
def encode (c : Column) : Except ColumnError EncodedColumn := do
  let kind ← c.kind
  c.checkIdentifiers
  pure {
    fragment := c.name ++ ": " ++ constructorText c.name kind ++ qualifiersText c.options
    imports := .ofList (kind.neededImport :: c.options.imports)
    referencedTables := c.referencedTables }

end Column

end SchemaLoom
