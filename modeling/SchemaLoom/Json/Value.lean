/-
  JSON values and their text.

  An object keeps its members in the order of the document, repeated names
  included, so the text of a value says exactly what was read.  `compact` and
  `pretty` are the two printed forms; `sorted` orders the members by name, the
  last of a repeated name winning.
-/
import SchemaLoom.Json.Decimal
import SchemaLoom.Text.Shown

namespace SchemaLoom.Json

/-- A JSON number: an integer of at most 64 bits, or a double by its bits. -/
inductive Number where
  | integer (value : Int)
  | double (bits : UInt64)
  deriving DecidableEq

/-- A JSON value. -/
inductive Value where
  | null
  | bool (b : Bool)
  | number (n : Number)
  | string (s : String)
  | array (items : List Value)
  | object (members : List (String × Value))
  deriving Inhabited

/-- The value of an integer. -/
def Value.integer (i : Int) : Value := .number (.integer i)

/-- The value of a natural number. -/
def Value.nat (n : Nat) : Value := .integer n

/-- The integer of 64 bits that equals `i`, if there is one. -/
def int64? (i : Int) : Option Int64 :=
  if -0x8000000000000000 ≤ i ∧ i ≤ 0x7fffffffffffffff then some (Int64.ofInt i) else none

/-- The array of some strings. -/
def Value.strings (ss : List String) : Value := .array (ss.map .string)

/-! ## Text of the leaves -/

/-- The text of an integer. -/
def integerText (i : Int) : String :=
  if i < 0 then "-" ++ toString i.natAbs else toString i.natAbs

/-- The text of a number. -/
def Number.text : Number → String
  | .integer i => integerText i
  | .double bits => doubleText bits

/-- A character inside a string: quotes, backslashes and control characters
    are escaped, all else stands for itself. -/
def escapeChar (c : Char) : List Char :=
  if c = '"' then ['\\', '"']
  else if c = '\\' then ['\\', '\\']
  else if c = '\x08' then ['\\', 'b']
  else if c = '\x0c' then ['\\', 'f']
  else if c = '\n' then ['\\', 'n']
  else if c = '\r' then ['\\', 'r']
  else if c = '\t' then ['\\', 't']
  else if c.toNat < 32 then
    ['\\', 'u', '0', '0', Text.hexDigit (c.toNat / 16), Text.hexDigit (c.toNat % 16)]
  else [c]

/-- The characters of a string with its quotes. -/
def stringChars (s : String) : List Char := '"' :: (s.toList.flatMap escapeChar ++ ['"'])

/-! ## Compact text -/

mutual

/-- The characters of a value without any spaces. -/
def compactChars : Value → List Char
  | .null => "null".toList
  | .bool b => if b then "true".toList else "false".toList
  | .number n => n.text.toList
  | .string s => stringChars s
  | .array items => '[' :: (compactItems items ++ [']'])
  | .object members => '\x7b' :: (compactMembers members ++ ['\x7d'])

/-- The characters of the elements of an array, separated by commas. -/
def compactItems : List Value → List Char
  | [] => []
  | [v] => compactChars v
  | v :: vs => compactChars v ++ ',' :: compactItems vs

/-- The characters of the members of an object, separated by commas. -/
def compactMembers : List (String × Value) → List Char
  | [] => []
  | [(k, v)] => stringChars k ++ ':' :: compactChars v
  | (k, v) :: rest => stringChars k ++ ':' :: (compactChars v ++ ',' :: compactMembers rest)

end

/-- The text of a value without any spaces. -/
def Value.compact (v : Value) : String := String.ofList (compactChars v)

/-! ## Pretty text -/

/-- A new line with `depth` steps of two spaces. -/
def newLine (depth : Nat) : List Char := '\n' :: List.replicate (2 * depth) ' '

mutual

/-- The characters of a value at the given depth, one element or member a
    line. -/
def prettyChars (depth : Nat) : Value → List Char
  | .array [] => ['[', ']']
  | .array (v :: vs) => '[' :: (prettyItems (depth + 1) (v :: vs) ++ newLine depth ++ [']'])
  | .object [] => ['\x7b', '\x7d']
  | .object (m :: ms) =>
    '\x7b' :: (prettyMembers (depth + 1) (m :: ms) ++ newLine depth ++ ['\x7d'])
  | .null => "null".toList
  | .bool b => if b then "true".toList else "false".toList
  | .number n => n.text.toList
  | .string s => stringChars s

/-- The characters of the elements of an array, each on its own line. -/
def prettyItems (depth : Nat) : List Value → List Char
  | [] => []
  | [v] => newLine depth ++ prettyChars depth v
  | v :: vs => newLine depth ++ prettyChars depth v ++ ',' :: prettyItems depth vs

/-- The characters of the members of an object, each on its own line. -/
def prettyMembers (depth : Nat) : List (String × Value) → List Char
  | [] => []
  | [(k, v)] => newLine depth ++ stringChars k ++ ':' :: ' ' :: prettyChars depth v
  | (k, v) :: rest =>
    newLine depth ++ stringChars k ++ ':' :: ' ' ::
      (prettyChars depth v ++ ',' :: prettyMembers depth rest)

end

/-- The text of a value over several lines, indented by two spaces. -/
def Value.pretty (v : Value) : String := String.ofList (prettyChars 0 v)

/-! ## Sorted members -/

/-- The members with `k` at its place by name, replacing an equal name. -/
def insertMember (k : String) (v : Value) : List (String × Value) → List (String × Value)
  | [] => [(k, v)]
  | (k', v') :: rest =>
    if k = k' then (k, v) :: rest
    else if k < k' then (k, v) :: (k', v') :: rest
    else (k', v') :: insertMember k v rest

mutual

/-- The value with the members of every object ordered by name. -/
def Value.sorted : Value → Value
  | .array items => .array (sortedItems items)
  | .object members => .object (sortedMembers members [])
  | .null => .null
  | .bool b => .bool b
  | .number n => .number n
  | .string s => .string s

/-- The sorted forms of the elements of an array. -/
def sortedItems : List Value → List Value
  | [] => []
  | v :: vs => v.sorted :: sortedItems vs

/-- The members put in order into those already seen. -/
def sortedMembers : List (String × Value) → List (String × Value) → List (String × Value)
  | [], seen => seen
  | (k, v) :: rest, seen => sortedMembers rest (insertMember k v.sorted seen)

end

end SchemaLoom.Json
