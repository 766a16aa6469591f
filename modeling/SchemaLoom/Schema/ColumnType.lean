/-
  The semantic types of columns, their names in schema definitions and the
  constructors that declare them in generated modules.
-/

namespace SchemaLoom

/-- A semantic column type. -/
inductive ColumnType where
  | serial
  | string
  | text
  | number
  | bigint
  | boolean
  | date
  | json
  | uuid
  | enum
  deriving DecidableEq

namespace ColumnType

/-- All column types. -/
def all : List ColumnType :=
  [.serial, .string, .text, .number, .bigint, .boolean, .date, .json, .uuid, .enum]

/-- The name used in schema definitions. -/
def name : ColumnType → String
  | serial => "serial"
  | string => "string"
  | text => "text"
  | number => "number"
  | bigint => "bigint"
  | boolean => "boolean"
  | date => "date"
  | json => "json"
  | uuid => "uuid"
  | enum => "enum"

/-- The constructor that declares a column of the type. -/
def constructor : ColumnType → String
  | serial => "serial"
  | string => "varchar"
  | text => "text"
  | number => "integer"
  | bigint => "bigint"
  | boolean => "boolean"
  | date => "timestamp"
  | json => "jsonb"
  | uuid => "uuid"
  | enum => "pgEnum"

/-- The type of a given name. -/
def ofName? (s : String) : Option ColumnType := all.find? fun t => t.name == s

/-- The type that a given constructor declares. -/
def ofConstructor? (s : String) : Option ColumnType := all.find? fun t => t.constructor == s

/-- Whether a column of the type may have a length. -/
def supportsLength : ColumnType → Bool
  | string => true
  | _ => false

end ColumnType

end SchemaLoom
