/-
  Reading generated modules, one entity each.

      export const Name = pgEnum('db_name', ['Value', ...] as const);
      export const Name = { column, ... };
      export const name = pgTable('db_name', { column, ...Helper, ... }[, key]);

  where the composite key is written

      (t) => ({ compositePK: primaryKey({ columns: [t.a, t.b] }) })
-/
import SchemaLoom.Schema.Project
import SchemaLoom.Source.Column

namespace SchemaLoom.Source

namespace Parse

/-- Takes the tokens up to the first that is `t`, and it too. -/
def skipThrough (t : Token) : List Located → List Located
  | [] => []
  | x :: xs => if x.token = t then xs else skipThrough t xs

/-- Skips the import statements in front, no more of them than there are tokens
    in `room`. -/
def skipImports : List Located → Parse Unit
  | [] => pure ()
  | _ :: room => do
    if (← current) = some (.identifier "import") then do
      modify fun s => { s with tokens := skipThrough .semicolon s.tokens }
      skipImports room

/-- The head of a module: imports, and the name that is declared. -/
def header : Parse String := do
  skipImports (← get).tokens
  keyword "export"
  keyword "const"
  let name ← identifier
  expect .equals
  pure name

/-- The end of a declaration and of the module. -/
def finish : Parse Unit := do
  let _ ← eat .semicolon
  endOfInput

/-! ## Enums -/

/-- The call that declares an enum: its name in the database, and its
    values. -/
def enumCall : Parse (List String) := do
  keyword "pgEnum"
  expect .leftParen
  let _ ← string
  expect .comma
  expect .leftBracket
  let values ← listUntil .rightBracket string
  keyword "as"
  keyword "const"
  expect .rightParen
  pure values

/-- The module of an enum. -/
def enumModule : Parse EnumDef := do
  let name ← header
  let values ← enumCall
  finish
  if values.isEmpty then unsupported (.emptyEnum name)
  else pure ⟨name, values.map Text.snakeCase⟩

/-! ## Helpers and tables -/

/-- A member of a body: a helper that is spread, or a column. -/
inductive Member where
  | spread (helper : String)
  | column (c : Column)

/-- A member of a body. -/
def member : Parse Member := do
  if ← eat .spread then do
    let helper ← identifier
    pure (.spread helper)
  else do
    let c ← column
    pure (.column c)

/-- The columns and the spread helpers between braces. -/
def body : Parse (List Member) := do
  expect .leftBrace
  listUntil .rightBrace member

/-- The columns among the members of a body. -/
def columnsOf (members : List Member) : List Column :=
  members.filterMap fun
    | .column c => some c
    | .spread _ => none

/-- The helpers among the members of a body. -/
def helpersOf (members : List Member) : List String :=
  members.filterMap fun
    | .spread helper => some helper
    | .column _ => none

/-- The module of a helper. -/
def helperModule : Parse HelperDef := do
  let name ← header
  let members ← body
  match helpersOf members with
  | helper :: _ => unsupported (.nestedHelper name helper)
  | [] => do
    finish
    pure ⟨name, columnsOf members⟩

/-- A column of a composite key, of the table bound to `owner`. -/
def keyColumn (owner : String) : Parse String := do
  let found ← identifier
  if found = owner then do
    expect .dot
    identifier
  else unsupported (.keyOwner owner found)

/-- The declaration of a composite key. -/
def compositeKey : Parse (List String) := do
  expect .leftParen
  let owner ← identifier
  expect .rightParen
  expect .arrow
  expect .leftParen
  expect .leftBrace
  keyword "compositePK"
  expect .colon
  keyword "primaryKey"
  expect .leftParen
  expect .leftBrace
  keyword "columns"
  expect .colon
  expect .leftBracket
  let columns ← listUntil .rightBracket (keyColumn owner)
  expect .rightBrace
  expect .rightParen
  expect .rightBrace
  expect .rightParen
  pure columns

/-- The module of a table of the given name.  The variable that it is bound to
    does not tell the name, which it has in lower case only. -/
def tableModule (name : String) : Parse TableDef := do
  let _ ← header
  keyword "pgTable"
  expect .leftParen
  let dbName ← string
  expect .comma
  let members ← body
  let key ← if ← eat .comma then compositeKey else pure []
  expect .rightParen
  finish
  pure {
    name
    dbName := if dbName = Text.snakeCase name then none else some dbName
    columns := columnsOf members
    helperReferences := helpersOf members
    compositePrimaryKey := key }

end Parse

/-- The enum that a module declares. -/
def readEnum (text : String) : Except Error EnumDef := Parse.enumModule.run text.toList

/-- The helper that a module declares. -/
def readHelper (text : String) : Except Error HelperDef := Parse.helperModule.run text.toList

/-- The table of the given name that a module declares. -/
def readTable (name text : String) : Except Error TableDef :=
  (Parse.tableModule name).run text.toList

end SchemaLoom.Source
