/-
  Reading columns of generated modules, such as

      email: varchar('email', { length: 255 }).notNull()

  The constructor tells a scalar type from an enum: every constructor that
  declares no type is the binding of an enum.
-/
import SchemaLoom.Schema.Column
import SchemaLoom.Source.Expression
import SchemaLoom.Source.Lexer

namespace SchemaLoom.Source

/-- Refuses a declaration at a call. -/
def Call.refuse {α : Type} (c : Call) (what : Unsupported) : Except Error α :=
  .error (.unsupported what c.line)

/-- The column that a constructor declares, before its arguments are read. -/
def constructed (name : String) (constructor : Call) : Except Error Column :=
  match ColumnType.ofConstructor? constructor.name with
  | some .enum => constructor.refuse .enumAsColumn
  | some type => .ok (.ofType name type)
  | none => .ok (.ofEnum name constructor.name)

/-- Reads the configuration of a constructor: strings may have a length, and a
    mode says nothing about the column. -/
def configure (constructor : Call) (column : Column) :
    List (String × Argument) → Except Error Column
  | [] => .ok column
  | (key, value) :: rest =>
    match key, value with
    | "length", .integer length =>
      if column.typeName = some ColumnType.string.name then
        if 0 ≤ length.toInt ∧ length.toInt ≤ 0xffffffff then
          configure constructor
            (column.withLength (UInt32.ofNat length.toInt.toNat)) rest
        else constructor.refuse (.length length)
      else constructor.refuse (.configKey key constructor.name)
    | "mode", .string _ => configure constructor column rest
    | _, _ => constructor.refuse (.configKey key constructor.name)

/-- Reads the arguments of a constructor: the name in the database, and the
    configuration. -/
def readConstructor (column : Column) (constructor : Call) : Except Error Column :=
  match constructor.arguments with
  | [.string _] => .ok column
  | [.string _, .object config] => configure constructor column config
  | _ => constructor.refuse (.constructorArguments constructor.name)

/-- The function that a template of the form `<function>()` calls. -/
def templateCall? (body : String) : Option String :=
  DefaultValue.calledBy? (Text.trim body.toList)

/-- Reads a default value.  The default of an enum column is one of its values,
    which are written in PascalCase. -/
def readDefault (isEnum : Bool) (c : Call) : Argument → Except Error DefaultValue
  | .bool b => .ok (.boolean b)
  | .integer i => .ok (.integer i)
  | .sql body =>
    match templateCall? body with
    | some function => .ok (.call function)
    | none => c.refuse (.sqlDefault body)
  | .string text => .ok (.text (if isEnum then Text.snakeCase text else text))
  | _ => c.refuse .defaultArgument

/-- Reads a call on a column. -/
def qualify (column : Column) (c : Call) : Except Error Column :=
  match c.name, c.arguments with
  | "primaryKey", [] => .ok column.primaryKey
  | "notNull", [] => .ok column.notNull
  | "default", [value] => (readDefault column.isEnum c value).map column.withDefault
  | "references", [.columnRef table target] => .ok (column.withReference table target)
  | name, arguments => c.refuse (.qualifier name arguments.length)

/-- The column that a chain of calls declares. -/
def interpret (name : String) (chain : Chain) : Except Error Column := do
  let column ← constructed name chain.head
  let column ← readConstructor column chain.head
  chain.rest.foldlM qualify column

namespace Parse

/-- A column: its name, a colon and the chain that declares it. -/
def column : Parse Column := do
  let name ← identifier
  expect .colon
  let chain ← chain
  match interpret name chain with
  | .ok c => pure c
  | .error e => throw e

/-- Parses a whole text. -/
def run {α : Type} (p : Parse α) (cs : List Char) : Except Error α := do
  let s ← tokens cs
  let (a, _) ← p s
  pure a

end Parse

/-- The column that a text declares.  Blank characters around it and a comma
    behind it are no part of it. -/
def decodeColumn (text : String) : Except Error Column :=
  let one : Parse Column := do
    let c ← Parse.column
    let _ ← Parse.eat .comma
    Parse.endOfInput
    pure c
  one.run (Text.trim text.toList)

end SchemaLoom.Source
