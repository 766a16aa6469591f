/-
  Default values of columns.

  In JSON a default is a boolean, an integer or a string.  A string of the form
  `sql.<function>()` is a call evaluated by the database, every other string is
  a literal.
-/
import SchemaLoom.Json.Value

namespace SchemaLoom

open Json (Value)

/-- The default value of a column. -/
inductive DefaultValue where
  | boolean (b : Bool)
  | integer (i : Int64)
  /-- A call of a database function without arguments. -/
  | call (function : String)
  | text (s : String)
  deriving DecidableEq

/-- Whether the characters name a database function: ASCII letters, digits and
    `_`, not starting with a digit. -/
def isFunctionName : List Char → Bool
  | [] => false
  | c :: rest => !c.isDigit && (c :: rest).all fun c => c.isAlphanum || c == '_'

namespace DefaultValue

/-- The function that characters of the form `<function>()` call. -/
def calledBy? (cs : List Char) : Option String := do
  let function ← "()".toList.isSuffixOf? cs
  if isFunctionName function then some (String.ofList function) else none

/-- The function that a string of the form `sql.<function>()` calls. -/
def calledFunction? (s : String) : Option String := do
  let call ← "sql.".toList.isPrefixOf? s.toList
  calledBy? call

/-- The default that a JSON string stands for. -/
def ofText (s : String) : DefaultValue :=
  match calledFunction? s with
  | some function => .call function
  | none => .text s

/-- The string form of a call. -/
def callText (function : String) : String := "sql." ++ function ++ "()"

/-- How a default is shown in descriptions. -/
def shown : DefaultValue → String
  | boolean b => if b then "true" else "false"
  | integer i => Json.integerText i.toInt
  | call function => callText function
  | text s => "'" ++ s ++ "'"

/-- The JSON form of a default. -/
def toJson : DefaultValue → Value
  | boolean b => .bool b
  | integer i => .integer i.toInt
  | call function => .string (callText function)
  | text s => .string s

/-- The default of a JSON value, or why there is none. -/
def ofJson? : Value → Except String DefaultValue
  | .bool b => .ok (.boolean b)
  | .number n =>
    match n with
    | .integer i =>
      match Json.int64? i with
      | some j => .ok (.integer j)
      | none => .error (refusal n)
    | .double _ => .error (refusal n)
  | .string s => .ok (ofText s)
  | v => .error ("unsupported default value " ++ v.sorted.compact)
where
  /-- Only integers of 64 bits are numeric defaults. -/
  refusal (n : Json.Number) : String :=
    "unsupported numeric default " ++ n.text ++ ": only integers are allowed"

end DefaultValue

end SchemaLoom
