/-
  A place in a JSON text, and the steps that move it.

  A `Reader` runs on a `Cursor` and answers with a value and the cursor behind
  it, or with a `Failure`.  Places are byte offsets; a fault found by looking
  at a character is placed behind its first byte, a fault found after taking
  characters where the cursor stands.

  A fault in the shape of a value is not placed where it is found, but when the
  record around it closes (`Failure.pending`): the place of an error is the end
  of the smallest value that contains it.
-/
import SchemaLoom.Json.Error

namespace SchemaLoom.Json

/-- The text still to be read, the number of bytes read, and how many more
    levels of nesting are allowed. -/
structure Cursor where
  rest : List Char
  offset : Nat
  depth : Nat
  /-- The number of characters of the whole text.  Nothing is repeated more
      often. -/
  size : Nat
  deriving DecidableEq

/-- How many levels values may nest. -/
def depthLimit : Nat := 128

/-- The start of a text. -/
def Cursor.ofString (s : String) : Cursor := ⟨s.toList, 0, depthLimit, s.length⟩

/-- The cursor behind the next character. -/
def Cursor.advance (c : Cursor) : Cursor :=
  match c.rest with
  | [] => c
  | ch :: rest => { c with rest := rest, offset := c.offset + ch.utf8Size }

/-- The four characters that may stand between tokens. -/
def isSpace (ch : Char) : Bool := ch == ' ' || ch == '\n' || ch == '\t' || ch == '\r'

/-- The cursor at the next character that is no space. -/
def Cursor.skipSpace (c : Cursor) : Cursor :=
  { c with
    rest := c.rest.dropWhile isSpace
    offset := c.offset + (c.rest.takeWhile isSpace).length }

/-- The offset at which a fault of the next character is placed. -/
def Cursor.peekOffset (c : Cursor) : Nat :=
  match c.rest with
  | [] => c.offset
  | _ :: _ => c.offset + 1

/-- Why reading stopped. -/
inductive Failure where
  /-- A fault with its place. -/
  | placed (cause : Cause) (offset : Nat)
  /-- A fault that the record around it will place, found at `reached`. -/
  | pending (fault : DataError) (reached : Cursor)

/-- A step from one cursor to another. -/
abbrev Reader := StateT Cursor (Except Failure)

namespace Reader

variable {α : Type}

/-- Stops with a fault placed where the cursor stands. -/
def failHere (fault : Malformed) : Reader α := fun c =>
  throw (.placed (.malformed fault) c.offset)

/-- Stops with a fault of the next character. -/
def failNext (fault : Malformed) : Reader α := fun c =>
  throw (.placed (.malformed fault) c.peekOffset)

/-- Stops with a fault of shape placed where the cursor stands. -/
def refuseHere (fault : DataError) : Reader α := fun c =>
  throw (.placed (.data fault) c.offset)

/-- Stops with a fault of shape that the record around it will place. -/
def refuse (fault : DataError) : Reader α := fun c => throw (.pending fault c)

/-- The next character, which stays unread. -/
def peek : Reader (Option Char) := fun c => pure (c.rest.head?, c)

/-- Takes the next character. -/
def advance : Reader Unit := modify Cursor.advance

/-- Moves to the next character that is no space, and looks at it. -/
def peekToken : Reader (Option Char) := do
  modify Cursor.skipSpace
  peek

/-- Moves to the first character of a value. -/
def peekValue : Reader Char := do
  match ← peekToken with
  | some ch => pure ch
  | none => failNext .endInValue

/-- Reads inside one more level of nesting. -/
def nested (body : Reader α) : Reader α := fun c =>
  if c.depth ≤ 1 then failNext .nestedTooDeep c
  else do
    let (a, c') ← body { c with depth := c.depth - 1 }
    pure (a, { c' with depth := c.depth })

/-- Reads the body of a bracketed value and its closing bracket.  A pending
    fault of the body is placed where the closing bracket leaves the cursor. -/
def closing (close : Cursor → Cursor × Option Failure) (body : Reader α) : Reader α := fun c =>
  match body c with
  | .ok (a, c') =>
    match close c' with
    | (c'', none) => pure (a, c'')
    | (_, some failure) => throw failure
  | .error (.pending fault c') => throw (.placed (.data fault) (close c').1.offset)
  | .error failure => throw failure

end Reader

/-! ## Places -/

/-- The line and the byte of the line of an offset, where the text that is left
    starts at byte `at_` and its line at byte `start`. -/
def placeFrom (offset at_ start line : Nat) : List Char → Nat × Nat
  | [] => (line, offset - start)
  | ch :: rest =>
    if offset ≤ at_ then (line, offset - start)
    else if ch = '\n' then placeFrom offset (at_ + 1) (at_ + 1) (line + 1) rest
    else placeFrom offset (at_ + ch.utf8Size) start line rest

/-- The line, from 1, and the byte of the line of an offset of a text. -/
def place (text : String) (offset : Nat) : Nat × Nat := placeFrom offset 0 0 1 text.toList

/-- Reads a whole text. -/
def Reader.run {α : Type} (r : Reader α) (text : String) : Except Error α :=
  let whole : Reader α := do
    let a ← r
    match ← Reader.peekToken with
    | none => pure a
    | some _ => Reader.failNext .trailingCharacters
  let located (cause : Cause) (offset : Nat) : Error :=
    ⟨cause, (place text offset).1, (place text offset).2⟩
  match whole (Cursor.ofString text) with
  | .ok (a, _) => .ok a
  | .error (.placed cause offset) => .error (located cause offset)
  | .error (.pending fault reached) => .error (located (.data fault) reached.offset)

end SchemaLoom.Json
