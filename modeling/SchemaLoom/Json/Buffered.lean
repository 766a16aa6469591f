/-
  Reading the shapes from a value at hand, as far as its text is already read.

  Faults have no place here.  A record given as an array may not have more
  elements than fields.
-/
import SchemaLoom.Json.Reader

namespace SchemaLoom.Json

/-- A reader of a value at hand. -/
abbrev Buffered := ReaderT Value (Except DataError)

namespace Buffered

variable {α σ : Type}

/-- Refuses the value at hand. -/
def refuse (fault : DataError) : Buffered α := fun _ => .error fault

/-- Refuses the value at hand, which has another shape than `wanted`. -/
def mismatch (wanted : String) : Buffered α := fun v => .error (.wrongType (.of v) wanted)

/-- Reads a string, called `wanted` in a message. -/
def stringAs (wanted : String) : Buffered String := fun v =>
  match v with
  | .string s => .ok s
  | _ => mismatch wanted v

/-- Reads a truth value. -/
def boolean : Buffered Bool := fun v =>
  match v with
  | .bool b => .ok b
  | _ => mismatch "a boolean" v

/-- Reads an integer inside a range. -/
def natural (limit : Nat) (wanted : String) : Buffered Nat := fun v =>
  match v with
  | .number n => n.inRange limit wanted
  | _ => mismatch wanted v

/-- Reads a value or `null`. -/
def optional (item : Buffered α) : Buffered (Option α) := fun v =>
  match v with
  | .null => .ok none
  | _ => (item v).map some

/-- Reads an array. -/
def list (item : Buffered α) : Buffered (List α) := fun v =>
  match v with
  | .array vs => vs.mapM item
  | _ => mismatch "a sequence" v

/-- The members of a record, read into `s`; the names `seen` are already
    there. -/
def recordMembers (fields : List (Field Buffered σ)) :
    List (String × Value) → List String → σ → Except DataError σ
  | [], seen, s =>
    match missingField? fields seen with
    | some k => .error (.missingField k)
    | none => .ok s
  | (k, v) :: rest, seen, s =>
    match fields.find? fun f => f.name == k with
    | none => recordMembers fields rest seen s
    | some f =>
      if seen.contains k then .error (.duplicateField k)
      else do
        let s' ← f.read s v
        recordMembers fields rest (k :: seen) s'

/-- The elements of a record given as an array, read into `s`; `taken` of the
    `count` fields are already there. -/
def recordItems (wanted : String) (count : Nat) :
    List (Field Buffered σ) → Nat → List Value → σ → Except DataError σ
  | [], _, [], s => .ok s
  | [], taken, vs@(_ :: _), _ =>
    .error (.wrongLength (taken + vs.length) (countText count ++ " in sequence"))
  | f :: fs, taken, v :: vs, s => do
    let s' ← f.read s v
    recordItems wanted count fs (taken + 1) vs s'
  | f :: fs, taken, [], s =>
    if f.presence = .defaulted then recordItems wanted count fs (taken + 1) [] s
    else .error (shortRecord wanted count taken)

/-- Reads a record, given as an object or as an array. -/
def record (wanted : String) (fields : List (Field Buffered σ)) (start : σ) : Buffered σ :=
  fun v =>
    match v with
    | .object ms => recordMembers fields ms [] start
    | .array vs => recordItems wanted fields.length fields 0 vs start
    | _ => mismatch wanted v

instance : Decoder Buffered where
  refuse := refuse
  value := fun v => .ok v
  string := stringAs "a string"
  boolean := boolean
  natural := natural
  optional := optional
  list := list
  record := record

end Buffered

/-! ## Tagged records -/

namespace Reader

/-- Splits the members of an object into the value of the member `tag`, read as
    one of the names, and the others. -/
def taggedMembers {α : Type} (tag : String) (names : List (String × α)) :
    Nat → Bool → Option α → Reader (α × List (String × Value))
  | 0, _, _ => failHere .endInObject
  | fuel + 1, first, found => do
    if ← hasMember first then do
      let k ← stringToken
      if k = tag then
        if found.isSome then refuse (.duplicateField tag)
        else do
          colon
          let a ← name names
          taggedMembers tag names fuel false (some a)
      else do
        colon
        let v ← value
        let (a, rest) ← taggedMembers tag names fuel false found
        pure (a, (k, v) :: rest)
    else
      match found with
      | some a => pure (a, [])
      | none => refuse (.missingField tag)

/-- Reads a record whose kind is one of the names: the member `tag` of an object
    or the first element of an array.  The other members or elements are
    answered as they are. -/
def tagged {α : Type} (wanted tag : String) (names : List (String × α)) :
    Reader (α × Value) := do
  let first ← peekValue
  if first = '\x7b' then
    inBraces (do
      let (a, ms) ← taggedMembers tag names ((← get).size + 1) true none
      pure (a, .object ms))
  else if first = '[' then
    inBrackets (do
      if ← hasItem true then do
        let a ← name names
        let vs ← items value ((← get).size + 1) false
        pure (a, .array vs)
      else refuse (.missingField tag))
  else mismatch wanted

end Reader

/-- Reads a value at hand inside a text that is being read. -/
def Buffered.within {α : Type} (b : Buffered α) (v : Value) : Reader α :=
  match b v with
  | .ok a => pure a
  | .error fault => Reader.refuse fault

end SchemaLoom.Json
