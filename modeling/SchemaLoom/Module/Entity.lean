/-
  Generated modules, one entity each.

  An entity is written whole or not at all: a column that cannot be written
  refuses the helper or the table that holds it.
-/
import SchemaLoom.Module.Column
import SchemaLoom.Module.ImportLines

namespace SchemaLoom

/-- Why an entity cannot be written. -/
inductive GenerationError where
  | incompleteEnum
  | incompleteHelper
  | unnamedTable
  | emptyTable
  /-- A name that cannot be declared, and what it names. -/
  | invalidName (what name : String)
  | column (name : String) (fault : ColumnError)
  deriving DecidableEq

/-- The wording of each fault. -/
def GenerationError.message : GenerationError → String
  | incompleteEnum => "Enum name and values are mandatory."
  | incompleteHelper => "Helper name and at least one column are mandatory."
  | unnamedTable => "Table name is mandatory."
  | emptyTable => "Table must have at least one column or helper reference."
  | invalidName what name => what ++ " name '" ++ name ++ "' is not a valid identifier."
  | column name fault => "Error in column '" ++ name ++ "': " ++ fault.message

/-- The wording of a fault as one of validation. -/
def GenerationError.fullMessage (e : GenerationError) : String :=
  "Validation error: " ++ e.message

/-- A declaration, what it needs in scope, and the variables of the tables that
    it refers to. -/
structure GeneratedEntity where
  kind : EntityKind
  name : String
  declaration : String
  imports : ImportSet
  referencedTables : List String
  deriving DecidableEq

namespace GeneratedEntity

/-- The name of the module. -/
def fileName (e : GeneratedEntity) : String := e.name ++ ".ts"

/-- The text of the module: the import lines, a blank line and the
    declaration. -/
def render (e : GeneratedEntity) (scope : ImportScope) : String :=
  let imports := e.imports.render scope
  if imports.isEmpty then e.declaration ++ "\n"
  else imports ++ "\n\n" ++ e.declaration ++ "\n"

end GeneratedEntity

/-- Refuses a name that cannot be declared. -/
def checkBinding (what name : String) : Except GenerationError Unit :=
  if Text.isBindingName name then .ok () else .error (.invalidName what name)

/-! ## Enums -/

/-- Writes an enum.  Every value must have a PascalCase form. -/
def EnumDef.generate (e : EnumDef) : Except GenerationError GeneratedEntity := do
  if isBlankName e.name || e.values.isEmpty || e.values.any fun v => (Text.pascalCase v).isEmpty
  then throw .incompleteEnum
  checkBinding "Enum" e.name
  let values := ", ".intercalate (e.values.map fun v => Text.quote (Text.pascalCase v))
  pure {
    kind := .enum
    name := e.name
    declaration := "export const " ++ e.name ++ " = pgEnum(" ++ Text.quote e.databaseName ++
      ", [" ++ values ++ "] as const);"
    imports := .ofList [.pgCore "pgEnum"]
    referencedTables := [] }

/-! ## Bodies of helpers and tables -/

/-- The columns of a body, written. -/
structure EncodedBody where
  lines : List String
  imports : ImportSet
  referencedTables : List String

/-- Adds an element that is not yet in the list. -/
def addNew (xs : List String) (x : String) : List String :=
  if xs.contains x then xs else xs ++ [x]

/-- Writes the columns of a body. -/
def encodeColumns (columns : List Column) : Except GenerationError EncodedBody := do
  let encoded ← columns.mapM fun c => c.encode.mapError (.column c.name)
  pure {
    lines := encoded.map fun e => "  " ++ e.fragment ++ ","
    imports := encoded.foldl (fun s e => s.union e.imports) .empty
    referencedTables := (encoded.flatMap EncodedColumn.referencedTables).foldl addNew [] }

/-- Writes a helper. -/
def HelperDef.generate (h : HelperDef) : Except GenerationError GeneratedEntity := do
  if isBlankName h.name || h.columns.isEmpty then throw .incompleteHelper
  checkBinding "Helper" h.name
  let body ← encodeColumns h.columns
  pure {
    kind := .helper
    name := h.name
    declaration := "\n".intercalate
      (("export const " ++ h.name ++ " = \x7b") :: (body.lines ++ ["\x7d;"]))
    imports := body.imports
    referencedTables := body.referencedTables }

/-! ## Tables -/

/-- The constraint of a composite key over the columns of the table bound to `binding`. -/
def keyText (binding : String) (columns : List String) : String :=
  ", (" ++ binding ++ ") => (\x7b compositePK: primaryKey(\x7b columns: [" ++
    ", ".intercalate (columns.map fun c => binding ++ "." ++ c) ++ "] \x7d) \x7d)"

namespace TableDef

/-- The constraints behind the body of a table. -/
def constraintsText (t : TableDef) : String :=
  match t.compositeKey with
  | some columns => keyText t.variableName columns
  | none => ""

/-- What a table needs in scope besides its columns. -/
def ownImports (t : TableDef) : List Import :=
  .pgCore "pgTable" :: (t.helperReferences.map .helper ++
    if t.compositeKey.isSome then [.pgCore "primaryKey"] else [])

/-- Writes a table.  A table is in its own scope, so it may refer to itself. -/
def generate (t : TableDef) : Except GenerationError GeneratedEntity := do
  if isBlankName t.name then throw .unnamedTable
  if t.columns.isEmpty && t.helperReferences.isEmpty then throw .emptyTable
  checkBinding "Table" t.name
  checkBinding "Table variable" t.variableName
  t.helperReferences.forM (checkBinding "Helper reference")
  let body ← encodeColumns t.columns
  let spreads := t.helperReferences.map fun h => "  ..." ++ h ++ ","
  pure {
    kind := .table
    name := t.name
    declaration := "\n".intercalate
      (("export const " ++ t.variableName ++ " = pgTable(" ++ Text.quote t.databaseName ++
          ", \x7b") ::
        (body.lines ++ spreads ++ ["\x7d" ++ t.constraintsText ++ ");"]))
    imports := (body.imports.union (.ofList t.ownImports)).erase (.table t.variableName)
    referencedTables := body.referencedTables }

end TableDef

end SchemaLoom
