/-
  Why a JSON text is refused.

  A text is `Malformed`, or it is well-formed and does not have the shape that
  is asked for (`DataError`).  An `Error` carries the place, counted in lines
  from 1 and in bytes of the line.
-/
import SchemaLoom.Json.Value

namespace SchemaLoom.Json

/-- What makes a text malformed. -/
inductive Malformed where
  | endInArray
  | endInObject
  | endInString
  | endInValue
  | colonExpected
  | itemEndExpected
  | memberEndExpected
  | literalExpected
  | valueExpected
  | badEscape
  | badNumber
  | numberOutOfRange
  | controlCharacter
  | keyNotString
  | loneSurrogate
  | endOfSurrogate
  | trailingComma
  | trailingCharacters
  | nestedTooDeep
  deriving DecidableEq

/-- The wording of each fault. -/
def Malformed.message : Malformed → String
  | .endInArray => "EOF while parsing a list"
  | .endInObject => "EOF while parsing an object"
  | .endInString => "EOF while parsing a string"
  | .endInValue => "EOF while parsing a value"
  | .colonExpected => "expected `:`"
  | .itemEndExpected => "expected `,` or `]`"
  | .memberEndExpected => "expected `,` or `\x7d`"
  | .literalExpected => "expected ident"
  | .valueExpected => "expected value"
  | .badEscape => "invalid escape"
  | .badNumber => "invalid number"
  | .numberOutOfRange => "number out of range"
  | .controlCharacter => "control character (\\u0000-\\u001F) found while parsing a string"
  | .keyNotString => "key must be a string"
  | .loneSurrogate => "lone leading surrogate in hex escape"
  | .endOfSurrogate => "unexpected end of hex escape"
  | .trailingComma => "trailing comma"
  | .trailingCharacters => "trailing characters"
  | .nestedTooDeep => "recursion limit exceeded"

/-- A value met where another shape is wanted. -/
inductive Found where
  | null
  | bool (b : Bool)
  | number (n : Number)
  | string (s : String)
  | array
  | object
  deriving DecidableEq

/-- What a value is met as. -/
def Found.of : Value → Found
  | .null => .null
  | .bool b => .bool b
  | .number n => .number n
  | .string s => .string s
  | .array _ => .array
  | .object _ => .object

/-- The texts of the two truth values. -/
def boolText (b : Bool) : String := if b then "true" else "false"

/-- How a met value is named in a message. -/
def Found.text : Found → String
  | .null => "null"
  | .bool b => "boolean `" ++ boolText b ++ "`"
  | .number (.integer i) => "integer `" ++ integerText i ++ "`"
  | .number (.double bits) => "floating point `" ++ doubleText bits ++ "`"
  | .string s => "string " ++ Text.shown s
  | .array => "sequence"
  | .object => "map"

/-- What is wrong with the shape of a value. -/
inductive DataError where
  | missingField (name : String)
  | duplicateField (name : String)
  | wrongType (found : Found) (wanted : String)
  | outOfRange (value : Int) (wanted : String)
  | wrongLength (length : Nat) (wanted : String)
  | unknownVariant (name : String) (variants : List String)
  /-- A value of the right JSON type that its domain refuses. -/
  | refused (message : String)
  deriving DecidableEq

/-- A list of names as the alternatives of a message. -/
def alternatives (names : List String) : String :=
  match names.map fun n => "`" ++ n ++ "`" with
  | [] => "nothing"
  | [a] => a
  | [a, b] => a ++ " or " ++ b
  | many => "one of " ++ ", ".intercalate many

/-- The wording of each fault. -/
def DataError.message : DataError → String
  | .missingField name => "missing field `" ++ name ++ "`"
  | .duplicateField name => "duplicate field `" ++ name ++ "`"
  | .wrongType found wanted => "invalid type: " ++ found.text ++ ", expected " ++ wanted
  | .outOfRange value wanted =>
    "invalid value: integer `" ++ integerText value ++ "`, expected " ++ wanted
  | .wrongLength length wanted =>
    "invalid length " ++ toString length ++ ", expected " ++ wanted
  | .unknownVariant name variants =>
    "unknown variant `" ++ name ++ "`, expected " ++ alternatives variants
  | .refused message => message

/-- Why a text is refused. -/
inductive Cause where
  | malformed (fault : Malformed)
  | data (fault : DataError)
  deriving DecidableEq

/-- The wording of a cause. -/
def Cause.message : Cause → String
  | .malformed fault => fault.message
  | .data fault => fault.message

/-- A cause and its place: the line, from 1, and the byte of the line. -/
structure Error where
  cause : Cause
  line : Nat
  column : Nat
  deriving DecidableEq

/-- The wording of an error with its place. -/
def Error.message (e : Error) : String :=
  e.cause.message ++ " at line " ++ toString e.line ++ " column " ++ toString e.column

end SchemaLoom.Json
