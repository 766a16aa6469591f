/-
  Steps that take tokens from a stream.

  A `Parse` either takes some tokens from the front of the stream, or stops with
  a fault.  The lists of the grammar share one form: items separated by commas,
  with at most one comma behind the last (`commaList`).
-/
import SchemaLoom.Source.Error

namespace SchemaLoom.Source

/-- A step that takes tokens. -/
abbrev Parse := StateT Stream (Except Error)

namespace Parse

variable {α : Type}

/-- The next token, which stays in the stream. -/
def current : Parse (Option Token) := fun s => pure (s.current, s)

/-- The line of the next token. -/
def line : Parse Nat := fun s => pure (s.line, s)

/-- Takes the next token. -/
def advance : Parse Unit := modify fun s => { s with tokens := s.tokens.tail }

/-- Stops because the next token is not what the grammar has here. -/
def expected (wanted : Expectation) : Parse α := fun s =>
  throw (.expected wanted s.current s.line)

/-- Stops because of a declaration that no schema holds, at the next token. -/
def unsupported (what : Unsupported) : Parse α := fun s => throw (.unsupported what s.line)

/-- Takes the next token if it is `t`, and says whether it is. -/
def eat (t : Token) : Parse Bool := do
  if (← current) = some t then do advance; pure true else pure false

/-- Takes the token `t`. -/
def expect (t : Token) : Parse Unit := do
  unless ← eat t do expected (.token t)

/-- Takes an identifier. -/
def identifier : Parse String := do
  match ← current with
  | some (.identifier name) => do advance; pure name
  | _ => expected .identifier

/-- Takes the identifier `word`. -/
def keyword (word : String) : Parse Unit := do
  if (← current) = some (.identifier word) then advance else expected (.keyword word)

/-- Takes a string literal. -/
def string : Parse String := do
  match ← current with
  | some (.string text) => do advance; pure text
  | _ => expected .string

/-- The stream must end here. -/
def endOfInput : Parse Unit := do
  if (← current).isSome then expected .endOfInput

/-- Items up to the closing token, separated by commas; the last may be followed
    by a comma.  No more commas are taken than there are tokens in `room`. -/
def commaList (close : Token) (item : Parse α) (room : List Located) : Parse (List α) := do
  if ← eat close then pure []
  else do
    let a ← item
    if ← eat .comma then
      match room with
      | [] => expected (.token close)
      | _ :: room => do
        let as ← commaList close item room
        pure (a :: as)
    else do
      expect close
      pure [a]

/-- Items up to the closing token.  The tokens in front are room enough, since
    every comma is one of them. -/
def listUntil (close : Token) (item : Parse α) : Parse (List α) := do
  commaList close item (← get).tokens

end Parse

end SchemaLoom.Source
