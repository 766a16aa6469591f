/-
  The values without parts: `null`, truth values, numbers and strings.

  Integers are exact up to 64 bits.  A number with a fraction or an exponent,
  or too large, is a double: the digits that fit 64 bits are taken exactly and
  scaled by a power of ten.
-/
import SchemaLoom.Json.Cursor

namespace SchemaLoom.Json.Reader

/-- Takes the characters of a literal word. -/
def literal : List Char → Reader Unit
  | [] => pure ()
  | x :: xs => do
    match ← peek with
    | none => failHere .endInValue
    | some ch => if ch = x then do advance; literal xs else failNext .literalExpected

/-! ## Numbers -/

/-- The largest integer of 64 bits without a sign. -/
def maxUnsigned : Nat := 0xffffffffffffffff

/-- The value of a decimal digit. -/
def digitValue (ch : Char) : Nat := ch.toNat - 48

/-- Takes the decimal digits that come next. -/
def digits : Reader (List Char) := fun c =>
  let ds := c.rest.takeWhile Char.isDigit
  pure (ds, { c with rest := c.rest.dropWhile Char.isDigit, offset := c.offset + ds.length })

/-- Decimal digits collected so far: their value, and whether a digit no longer
    fitted 64 bits. -/
structure Significand where
  value : Nat
  taken : Nat
  full : Bool

/-- Adds a digit if it still fits. -/
def Significand.push (s : Significand) (ch : Char) : Significand :=
  let value := s.value * 10 + digitValue ch
  if s.full || value > maxUnsigned then { s with full := true }
  else { s with value := value, taken := s.taken + 1 }

/-- The digits of `ds` that fit after the value `start`. -/
def significand (start : Nat) (ds : List Char) : Significand :=
  ds.foldl Significand.push ⟨start, 0, false⟩

/-- `f · 10 ^ power`, scaled by at most `10 ^ 308` at a time; `none` if it is
    too large. -/
def scale (f : Float) (power : Int) : Nat → Option Float
  | 0 => some f
  | steps + 1 =>
    if power.natAbs ≤ 308 then
      let factor := Float.ofScientific 1 false power.natAbs
      if 0 ≤ power then
        let g := f * factor
        if g.isInf then none else some g
      else some (f / factor)
    else if f == 0.0 then some f
    else if 0 ≤ power then none
    else scale (f / Float.ofScientific 1 false 308) (power + 308) steps

/-- The double `± value · 10 ^ power`. -/
def double (negative : Bool) (value : Nat) (power : Int) : Reader Number := do
  match scale value.toUInt64.toFloat power 4 with
  | none => failHere .numberOutOfRange
  | some f => pure (.double (if negative then -f else f).toBits)

/-- The exponent as its digits are taken; `none` once it exceeds 31 bits. -/
def exponentDigits : Nat → Nat → Reader (Option Nat)
  | 0, e => pure (some e)
  | fuel + 1, e => do
    match ← peek with
    | some ch =>
      if ch.isDigit then do
        advance
        let e' := e * 10 + digitValue ch
        if e' > 0x7fffffff then pure none else exponentDigits fuel e'
      else pure (some e)
    | none => pure (some e)

/-- The number with an exponent, read from the `e`. -/
def withExponent (negative : Bool) (value : Nat) (power : Int) : Reader Number := do
  advance
  let sign ← peek
  if sign = some '+' ∨ sign = some '-' then advance
  match ← peek with
  | none => failHere .endInValue
  | some ch =>
    if ch.isDigit then
      match ← exponentDigits (← get).size 0 with
      | some e => double negative value (if sign = some '-' then power - e else power + e)
      | none =>
        if value ≠ 0 ∧ sign ≠ some '-' then failHere .numberOutOfRange
        else do
          let _ ← digits
          pure (.double (if negative then -0.0 else 0.0 : Float).toBits)
    else failNext .badNumber

/-- Whether a character starts an exponent. -/
def isExponentMark (ch : Option Char) : Bool := ch == some 'e' || ch == some 'E'

/-- The number with a fraction, read from the point. -/
def withFraction (negative : Bool) (value : Nat) (power : Int) : Reader Number := do
  advance
  match ← digits with
  | [] => do
    match ← peek with
    | some _ => failNext .badNumber
    | none => failNext .endInValue
  | ds => do
    let s := significand value ds
    if isExponentMark (← peek) then withExponent negative s.value (power - s.taken)
    else double negative s.value (power - s.taken)

/-- The number whose integer digits have the value `value`, scaled by `power`
    because digits were left out. -/
def afterDigits (negative : Bool) (value power : Nat) : Reader Number := do
  let next ← peek
  if next = some '.' then withFraction negative value power
  else if isExponentMark next then withExponent negative value power
  else if power ≠ 0 then double negative value power
  else if !negative then pure (.integer value)
  else if value = 0 ∨ 0x8000000000000000 < value then double negative value 0
  else pure (.integer (-value))

/-- Reads a number, from its sign or first digit. -/
def number : Reader Number := do
  let negative := (← peek) == some '-'
  if negative then advance
  match ← peek with
  | none => failHere .endInValue
  | some '0' => do
    advance
    if (← peek).any Char.isDigit then failNext .badNumber else afterDigits negative 0 0
  | some ch =>
    if ch.isDigit then do
      let ds ← digits
      let s := significand 0 ds
      afterDigits negative s.value (ds.length - s.taken)
    else failNext .badNumber

/-! ## Strings -/

/-- The value of a hexadecimal digit. -/
def hexValue? (ch : Char) : Option Nat :=
  if ch.isDigit then some (ch.toNat - 48)
  else if 'a' ≤ ch ∧ ch ≤ 'f' then some (ch.toNat - 87)
  else if 'A' ≤ ch ∧ ch ≤ 'F' then some (ch.toNat - 55)
  else none

/-- The number of bytes of a text. -/
def byteCount (cs : List Char) : Nat := cs.foldr (fun c n => c.utf8Size + n) 0

/-- Takes four bytes as a hexadecimal number. -/
def hexFour : Reader Nat := fun c =>
  let next := c.rest.take 4
  if byteCount next < 4 then
    throw (.placed (.malformed .endInString) (c.offset + byteCount next))
  else
    match next.mapM hexValue? with
    | some [w, x, y, z] =>
      pure (((w * 16 + x) * 16 + y) * 16 + z,
        { c with rest := c.rest.drop 4, offset := c.offset + 4 })
    | _ => throw (.placed (.malformed .badEscape) (c.offset + 4))

/-- Takes a character that the second half of a pair must have. -/
def pairMark (mark : Char) : Reader Unit := do
  match ← peek with
  | none => failHere .endInString
  | some ch => if ch = mark then advance else failNext .endOfSurrogate

/-- The character of a `\u` escape, which takes two of them beyond 16 bits. -/
def unicodeEscape : Reader Char := do
  let n ← hexFour
  if 0xDC00 ≤ n ∧ n ≤ 0xDFFF then failHere .loneSurrogate
  else if n < 0xD800 ∨ 0xDBFF < n then pure (Char.ofNat n)
  else do
    pairMark '\\'
    pairMark 'u'
    let low ← hexFour
    if low < 0xDC00 ∨ 0xDFFF < low then failHere .loneSurrogate
    else pure (Char.ofNat ((n - 0xD800) * 1024 + (low - 0xDC00) + 0x10000))

/-- The characters that a backslash and a letter stand for. -/
def shortEscape? (ch : Char) : Option Char :=
  if ch = '"' then some '"'
  else if ch = '\\' then some '\\'
  else if ch = '/' then some '/'
  else if ch = 'b' then some '\x08'
  else if ch = 'f' then some '\x0c'
  else if ch = 'n' then some '\n'
  else if ch = 'r' then some '\r'
  else if ch = 't' then some '\t'
  else none

/-- The character of an escape, read behind the backslash. -/
def escape : Reader Char := do
  match ← peek with
  | none => failHere .endInString
  | some 'u' => do advance; unicodeEscape
  | some ch =>
    match shortEscape? ch with
    | some out => do advance; pure out
    | none => failNext .badEscape

/-- The characters of a string up to its closing quote, after those in `done`,
    the last first. -/
def stringRest : Nat → List Char → Reader (List Char)
  | 0, _ => failHere .endInString
  | fuel + 1, done => do
    match ← peek with
    | none => failHere .endInString
    | some '"' => do advance; pure done.reverse
    | some '\\' => do
      advance
      let ch ← escape
      stringRest fuel (ch :: done)
    | some ch =>
      if ch.toNat < 32 then failNext .controlCharacter
      else do advance; stringRest fuel (ch :: done)

/-- Reads a string, from its opening quote. -/
def stringToken : Reader String := do
  advance
  let cs ← stringRest ((← get).size + 1) []
  pure (String.ofList cs)

/-! ## Any leaf -/

/-- Reads the leaf that starts with the next character `first`; `none` if no
    leaf starts with it. -/
def leaf? (first : Char) : Reader (Option Value) := do
  if first = 'n' then do advance; literal ['u', 'l', 'l']; pure (some .null)
  else if first = 't' then do advance; literal ['r', 'u', 'e']; pure (some (.bool true))
  else if first = 'f' then do advance; literal ['a', 'l', 's', 'e']; pure (some (.bool false))
  else if first = '-' ∨ first.isDigit then do
    let n ← number
    pure (some (.number n))
  else if first = '"' then do
    let s ← stringToken
    pure (some (.string s))
  else pure none

end SchemaLoom.Json.Reader
