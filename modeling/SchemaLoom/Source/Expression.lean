/-
  The expressions of generated modules.

      chain    := call ( '.' call )*
      call     := IDENT '(' arguments ')'
      argument := STRING | NUMBER | 'true' | 'false' | 'sql' TEMPLATE
                | '{' ( IDENT ':' argument ),* '}'
                | '(' ')' '=>' IDENT '.' IDENT

  Lists may end with a comma, numbers have at most 64 bits, and `sql` stands
  before a template only.  All other expressions are refused.
-/
import SchemaLoom.Source.Parse

namespace SchemaLoom.Source

/-- An argument of a call. -/
inductive Argument where
  | string (text : String)
  | integer (value : Int64)
  | bool (b : Bool)
  | object (entries : List (String × Argument))
  /-- A template that the database evaluates. -/
  | sql (body : String)
  /-- A function that answers a column of a table. -/
  | columnRef (table column : String)

/-- A call with its arguments, and the line of its name. -/
structure Call where
  name : String
  arguments : List Argument
  line : Nat

/-- A call and the calls on its result. -/
structure Chain where
  head : Call
  rest : List Call

/-- The number that a literal denotes. -/
def literalValue (digits : String) : Int :=
  match digits.toList with
  | '-' :: ds => -Nat.ofDigitChars 10 ds 0
  | ds => Nat.ofDigitChars 10 ds 0

/-- The integer that a literal denotes, if it has at most 64 bits. -/
def integerLiteral? (digits : String) : Option Int64 := Json.int64? (literalValue digits)

namespace Parse

/-- An entry of an object: a key, a colon and an argument. -/
def entry (argument : Parse Argument) : Parse (String × Argument) := do
  let key ← identifier
  expect .colon
  let value ← argument
  pure (key, value)

/-- An argument in which objects nest no deeper than there are tokens in
    `room`. -/
def argumentWithin : List Located → Parse Argument
  | [] => expected .argument
  | _ :: room => do
    match ← current with
    | some (.string text) => do advance; pure (.string text)
    | some (.number digits) =>
      match integerLiteral? digits with
      | some value => do advance; pure (.integer value)
      | none => unsupported (.number digits)
    | some (.identifier "true") => do advance; pure (.bool true)
    | some (.identifier "false") => do advance; pure (.bool false)
    | some (.identifier "sql") => do
      advance
      -- a fault here names the token behind the missing template
      let body ← current
      advance
      match body with
      | some (.template text) => pure (.sql text)
      | _ => expected .sqlTemplate
    | some .leftBrace => do
      advance
      let entries ← listUntil .rightBrace (entry (argumentWithin room))
      pure (.object entries)
    | some .leftParen => do
      advance
      expect .rightParen
      expect .arrow
      let table ← identifier
      expect .dot
      let column ← identifier
      pure (.columnRef table column)
    | _ => expected .argument

/-- An argument.  The tokens in front are room enough, since every object opens
    with one of them; without any there is no argument. -/
def argument : Parse Argument := do argumentWithin (← get).tokens

/-- A call. -/
def call : Parse Call := do
  let line ← line
  let name ← identifier
  expect .leftParen
  let arguments ← listUntil .rightParen argument
  pure ⟨name, arguments, line⟩

/-- The calls that follow, each behind a dot; no more of them than there are
    tokens in `room`. -/
def moreCalls : List Located → Parse (List Call)
  | [] => pure []
  | _ :: room => do
    if ← eat .dot then do
      let c ← call
      let cs ← moreCalls room
      pure (c :: cs)
    else pure []

/-- A call and the calls on its result. -/
def chain : Parse Chain := do
  let head ← call
  let rest ← moreCalls (← get).tokens
  pure ⟨head, rest⟩

end Parse

end SchemaLoom.Source
