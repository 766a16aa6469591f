/-
  Values that nobody asks for.

  A value of an unknown member is checked for its form only: its numbers may
  have any size, its escapes any code point, and its brackets any depth, so it
  is read with a stack of open brackets.
-/
import SchemaLoom.Json.Leaf

namespace SchemaLoom.Json.Reader

/-- Takes the decimal digits that come next, and says whether there are any. -/
def skipDigits : Reader Bool := do
  let ds ← digits
  pure !ds.isEmpty

/-- Takes an exponent, from the `e`. -/
def skipExponent : Reader Unit := do
  advance
  let sign ← peek
  if sign = some '+' ∨ sign = some '-' then advance
  unless ← skipDigits do
    match ← peek with
    | some _ => failNext .badNumber
    | none => failHere .badNumber

/-- Takes a number, from its sign or first digit. -/
def skipNumber : Reader Unit := do
  if (← peek) = some '-' then advance
  match ← peek with
  | none => failHere .badNumber
  | some '0' => do
    advance
    if (← peek).any Char.isDigit then failNext .badNumber
  | some ch => if ch.isDigit then do let _ ← digits else failNext .badNumber
  if (← peek) = some '.' then
    advance
    unless ← skipDigits do failNext .badNumber
  if isExponentMark (← peek) then skipExponent

/-- Takes an escape, behind the backslash; any code unit will do. -/
def skipEscape : Reader Unit := do
  match ← peek with
  | none => failHere .endInString
  | some 'u' => do advance; let _ ← hexFour
  | some ch => if (shortEscape? ch).isSome then advance else failNext .badEscape

/-- Takes the rest of a string with its closing quote. -/
def skipStringRest : Nat → Reader Unit
  | 0 => failHere .endInString
  | fuel + 1 => do
    match ← peek with
    | none => failHere .endInString
    | some '"' => advance
    | some '\\' => do advance; skipEscape; skipStringRest fuel
    | some ch =>
      if ch.toNat < 32 then failHere .controlCharacter
      else do advance; skipStringRest fuel

/-- Takes a string, from its opening quote. -/
def skipString : Reader Unit := do
  advance
  skipStringRest ((← get).size + 1)

/-- An open bracket. -/
inductive Bracket where
  | array
  | object
  deriving DecidableEq

/-- The character that closes a bracket. -/
def Bracket.closer : Bracket → Char
  | .array => ']'
  | .object => '\x7d'

/-- The fault of a text that ends inside a bracket. -/
def Bracket.endFault : Bracket → Malformed
  | .array => .endInArray
  | .object => .endInObject

/-- The fault of a missing comma or closing bracket. -/
def Bracket.separatorFault : Bracket → Malformed
  | .array => .itemEndExpected
  | .object => .memberEndExpected

/-- Takes the name of a member and its colon. -/
def skipName : Reader Unit := do
  match ← peekToken with
  | some '"' => skipString
  | some _ => failNext .keyNotString
  | none => failNext .endInObject
  match ← peekToken with
  | some ':' => advance
  | some _ => failNext .colonExpected
  | none => failNext .endInObject

/-- What comes next while a value is skipped: a value, or what follows the
    opening bracket or an element of the innermost open bracket. -/
inductive SkipState where
  | value
  | inside (afterItem : Bool)
  deriving DecidableEq

/-- Skips until all open brackets are closed. -/
def skipOpen : Nat → SkipState → List Bracket → Reader Unit
  | 0, _, _ => failHere .endInValue
  | fuel + 1, .value, open_ => do
    let first ← peekValue
    if first = '[' then do advance; skipOpen fuel (.inside false) (.array :: open_)
    else if first = '\x7b' then do advance; skipOpen fuel (.inside false) (.object :: open_)
    else do
      if first = 'n' then do advance; literal ['u', 'l', 'l']
      else if first = 't' then do advance; literal ['r', 'u', 'e']
      else if first = 'f' then do advance; literal ['a', 'l', 's', 'e']
      else if first = '-' ∨ first.isDigit then skipNumber
      else if first = '"' then skipString
      else failNext .valueExpected
      skipOpen fuel (.inside true) open_
  | _ + 1, .inside _, [] => pure ()
  | fuel + 1, .inside afterItem, bracket :: outer => do
    match ← peekToken with
    | none => failNext bracket.endFault
    | some ch =>
      if ch = bracket.closer then do advance; skipOpen fuel (.inside true) outer
      else if afterItem && ch != ',' then failNext bracket.separatorFault
      else do
        if afterItem then advance
        if bracket = .object then skipName
        skipOpen fuel .value (bracket :: outer)

/-- Skips a value. -/
def skipValue : Reader Unit := do
  skipOpen (2 * (← get).size + 2) .value []

end SchemaLoom.Json.Reader
