/-
  Reading the shapes from a text.

  The order of the faults is that of the text: a shape is checked as soon as
  its value is met, so a fault of shape hides a malformed text behind it.
-/
import SchemaLoom.Json.Decoder
import SchemaLoom.Json.Skip

namespace SchemaLoom.Json.Reader

variable {α σ κ : Type}

/-- Refuses the next value, which has another shape than `wanted`. -/
def mismatch (wanted : String) : Reader α := do
  let first ← peekValue
  if first = '[' then refuseHere (.wrongType .array wanted)
  else if first = '\x7b' then refuseHere (.wrongType .object wanted)
  else
    match ← leaf? first with
    | some v => refuseHere (.wrongType (.of v) wanted)
    | none => failNext .valueExpected

/-- Reads a string, called `wanted` in a message. -/
def stringAs (wanted : String) : Reader String := do
  if (← peekValue) = '"' then stringToken else mismatch wanted

/-- Reads a truth value. -/
def boolean : Reader Bool := do
  let first ← peekValue
  if first = 't' then do advance; literal ['r', 'u', 'e']; pure true
  else if first = 'f' then do advance; literal ['a', 'l', 's', 'e']; pure false
  else mismatch "a boolean"

/-- Reads an integer inside a range. -/
def natural (limit : Nat) (wanted : String) : Reader Nat := do
  let first ← peekValue
  if first = '-' ∨ first.isDigit then
    match (← number).inRange limit wanted with
    | .ok n => pure n
    | .error fault => refuseHere fault
  else mismatch wanted

/-- Reads `null`. -/
def unit : Reader Unit := do
  if (← peekValue) = 'n' then do advance; literal ['u', 'l', 'l'] else mismatch "unit"

/-- Reads a value or `null`. -/
def optional (item : Reader α) : Reader (Option α) := do
  if (← peekToken) = some 'n' then do advance; literal ['u', 'l', 'l']; pure none
  else do
    let a ← item
    pure (some a)

/-! ## Arrays -/

/-- Moves to the next element of an array, if there is one. -/
def hasItem (first : Bool) : Reader Bool := do
  match ← peekToken with
  | none => failNext .endInArray
  | some ']' => pure false
  | some ch =>
    if first then pure true
    else if ch = ',' then do
      advance
      match ← peekToken with
      | some ']' => failNext .trailingComma
      | some _ => pure true
      | none => failNext .endInValue
    else failNext .itemEndExpected

/-- The elements of an array, read by `item`. -/
def items (item : Reader α) : Nat → Bool → Reader (List α)
  | 0, _ => failHere .endInArray
  | fuel + 1, first => do
    if ← hasItem first then do
      let a ← item
      let as ← items item fuel false
      pure (a :: as)
    else pure []

/-- The cursor behind the end of an array, or where its fault leaves it. -/
def closeArray (c : Cursor) : Cursor × Option Failure :=
  let c := c.skipSpace
  let fault (c : Cursor) (m : Malformed) := (c, some (.placed (.malformed m) c.peekOffset))
  match c.rest with
  | [] => fault c .endInArray
  | ']' :: _ => (c.advance, none)
  | ',' :: _ =>
    let c := c.advance.skipSpace
    if c.rest.head? = some ']' then fault c .trailingComma else fault c .trailingCharacters
  | _ :: _ => fault c .trailingCharacters

/-- Reads an array from its bracket, the part between the brackets by `body`. -/
def inBrackets (body : Reader α) : Reader α :=
  nested (closing closeArray (do advance; body))

/-- Reads an array. -/
def list (item : Reader α) : Reader (List α) := do
  if (← peekValue) = '[' then
    inBrackets (do items item ((← get).size + 1) true)
  else mismatch "a sequence"

/-! ## Objects -/

/-- Moves to the name of the next member of an object, if there is one. -/
def hasMember (first : Bool) : Reader Bool := do
  match ← peekToken with
  | none => failNext .endInObject
  | some '\x7d' => pure false
  | some ch =>
    if first then
      if ch = '"' then pure true else failNext .keyNotString
    else if ch = ',' then do
      advance
      match ← peekToken with
      | some '"' => pure true
      | some '\x7d' => failNext .trailingComma
      | some _ => failNext .keyNotString
      | none => failNext .endInValue
    else failNext .memberEndExpected

/-- Takes the colon behind the name of a member. -/
def colon : Reader Unit := do
  match ← peekToken with
  | some ':' => advance
  | some _ => failNext .colonExpected
  | none => failNext .endInObject

/-- The cursor behind the end of an object, or where its fault leaves it. -/
def closeObject (c : Cursor) : Cursor × Option Failure :=
  let c := c.skipSpace
  let fault (m : Malformed) := (c, some (.placed (.malformed m) c.peekOffset))
  match c.rest with
  | [] => fault .endInObject
  | '\x7d' :: _ => (c.advance, none)
  | ',' :: _ => fault .trailingComma
  | _ :: _ => fault .trailingCharacters

/-- Reads an object from its bracket, the part between the brackets by
    `body`. -/
def inBraces (body : Reader α) : Reader α :=
  nested (closing closeObject (do advance; body))

/-- The members of an object in order, each name read by `key` and each value
    by `item`. -/
def members (key : Reader κ) (item : Reader α) : Nat → Bool → Reader (List (κ × α))
  | 0, _ => failHere .endInObject
  | fuel + 1, first => do
    if ← hasMember first then do
      let k ← key
      colon
      let a ← item
      let rest ← members key item fuel false
      pure ((k, a) :: rest)
    else pure []

/-- Reads an object as a list of members. -/
def mapping (key : Reader κ) (item : Reader α) : Reader (List (κ × α)) := do
  if (← peekValue) = '\x7b' then
    inBraces (do members key item ((← get).size + 1) true)
  else mismatch "a map"

/-! ## Any value -/

/-- Reads a value whose brackets nest at most to the given depth. -/
def valueWithin : Nat → Reader Value
  | 0 => failNext .nestedTooDeep
  | depth + 1 => do
    let first ← peekValue
    if first = '[' then do
      let vs ← inBrackets (do items (valueWithin depth) ((← get).size + 1) true)
      pure (.array vs)
    else if first = '\x7b' then do
      let ms ← inBraces (do
        members stringToken (valueWithin depth) ((← get).size + 1) true)
      pure (.object ms)
    else
      match ← leaf? first with
      | some v => pure v
      | none => failNext .valueExpected

/-- Reads any value. -/
def value : Reader Value := do valueWithin (← get).depth

/-! ## Names from a list -/

/-- What a name stands for, or the fault of an unknown one. -/
def namedBy (names : List (String × α)) (name : String) : Except DataError α :=
  match names.lookup name with
  | some a => .ok a
  | none => .error (.unknownVariant name (names.map Prod.fst))

/-- Reads a string that has to be one of the names. -/
def name (names : List (String × α)) : Reader α := do
  match namedBy names (← stringAs "variant identifier") with
  | .ok a => pure a
  | .error fault => refuseHere fault

/-- Reads one of the names: as a string, or as the one member of an object
    with the value `null`. -/
def variant (names : List (String × α)) : Reader α := do
  match ← peekToken with
  | none => failNext .endInValue
  | some '"' => name names
  | some '\x7b' => nested (do
      advance
      match ← peekToken with
      | some '"' => pure ()
      | some _ => failNext .keyNotString
      | none => failNext .endInObject
      let a ← name names
      colon
      unit
      match ← peekToken with
      | some '\x7d' => do advance; pure a
      | some _ => failHere .valueExpected
      | none => failHere .endInObject)
  | some _ => failNext .valueExpected

/-! ## Records -/

/-- The members of a record, read into `s`; the names `seen` are already
    there. -/
def recordMembers (fields : List (Field Reader σ)) :
    Nat → Bool → List String → σ → Reader σ
  | 0, _, _, _ => failHere .endInObject
  | fuel + 1, first, seen, s => do
    if ← hasMember first then do
      let k ← stringToken
      match fields.find? fun f => f.name == k with
      | none => do
        colon
        skipValue
        recordMembers fields fuel false seen s
      | some f =>
        if seen.contains k then refuse (.duplicateField k)
        else do
          colon
          let s' ← f.read s
          recordMembers fields fuel false (k :: seen) s'
    else
      match missingField? fields seen with
      | some k => refuse (.missingField k)
      | none => pure s

/-- The fields of a record given as an array, read into `s`; `taken` of them
    are already there. -/
def recordItems (wanted : String) (count : Nat) :
    List (Field Reader σ) → Nat → σ → Reader σ
  | [], _, s => pure s
  | f :: fs, taken, s => do
    if ← hasItem (taken == 0) then do
      let s' ← f.read s
      recordItems wanted count fs (taken + 1) s'
    else if f.presence == .defaulted then recordItems wanted count fs (taken + 1) s
    else refuse (shortRecord wanted count taken)

/-- Reads a record, given as an object or as an array. -/
def record (wanted : String) (fields : List (Field Reader σ)) (start : σ) : Reader σ := do
  let first ← peekValue
  if first = '[' then inBrackets (recordItems wanted fields.length fields 0 start)
  else if first = '\x7b' then
    inBraces (do recordMembers fields ((← get).size + 1) true [] start)
  else mismatch wanted

instance : Decoder Reader where
  refuse := refuse
  value := value
  string := stringAs "a string"
  boolean := boolean
  natural := natural
  optional := optional
  list := list
  record := record

end SchemaLoom.Json.Reader
