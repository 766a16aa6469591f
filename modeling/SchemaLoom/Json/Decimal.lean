/-
  Decimal text of double-precision numbers.

  A finite double is `significand · 2 ^ exponent`.  `shortest` gives the fewest
  decimal digits that read back as the same double: for 1, 2, … 17 digits it
  looks at the two neighbours of the value on that decimal grid and takes the
  nearer one inside the interval of reals that round to the double.

  `Double.text` lays the digits out: positional notation for the scientific
  exponents from -5 to 15, always with a fraction, and an exponent with a sign
  outside of them.
-/

namespace SchemaLoom.Json

/-- The magnitude of a finite double, `significand · 2 ^ exponent`. -/
structure Magnitude where
  significand : Nat
  exponent : Int
  deriving DecidableEq

/-- The leading bit of the significand of a normal double, the 53rd, which is
    not stored. -/
def leadingBit : Nat := 0x10000000000000

/-- The magnitude encoded in the low 63 bits of a finite double. -/
def Magnitude.ofBits (bits : UInt64) : Magnitude :=
  let fraction : Nat := bits.toNat % leadingBit
  let biased : Nat := bits.toNat / leadingBit % 2048
  if biased = 0 then ⟨fraction, -1074⟩ else ⟨leadingBit + fraction, (biased : Int) - 1075⟩

/-- A positive rational number. -/
structure Fraction where
  num : Nat
  den : Nat

/-- The fraction `n · base ^ e`. -/
def Fraction.scaled (n base : Nat) (e : Int) : Fraction :=
  if 0 ≤ e then ⟨n * Nat.pow base e.toNat, 1⟩ else ⟨n, Nat.pow base (-e).toNat⟩

/-- `a ≤ b` for fractions. -/
def Fraction.le (a b : Fraction) : Bool := a.num * b.den ≤ b.num * a.den

/-- `a < b` for fractions. -/
def Fraction.lt (a b : Fraction) : Bool := a.num * b.den < b.num * a.den

/-- Whether a fraction rounds to the double of magnitude `m`: it lies between
    the midpoints to the neighbouring doubles, the midpoints themselves
    included when the significand is even.  The lower neighbour of a power of
    two is half as far away. -/
def Magnitude.rounds (m : Magnitude) (x : Fraction) : Bool :=
  let below :=
    if m.significand = leadingBit ∧ m.exponent ≠ -1074 then
      Fraction.scaled (4 * m.significand - 1) 2 (m.exponent - 2)
    else Fraction.scaled (2 * m.significand - 1) 2 (m.exponent - 1)
  let above := Fraction.scaled (2 * m.significand + 1) 2 (m.exponent - 1)
  if m.significand % 2 = 0 then below.le x && x.le above else below.lt x && x.lt above

/-- Decimal digits as a number, and the power of ten of the last digit. -/
structure Decimal where
  digits : Nat
  power : Int
  deriving DecidableEq

/-- The value of a decimal. -/
def Decimal.fraction (d : Decimal) : Fraction := Fraction.scaled d.digits 10 d.power

/-- The number of decimal digits of `n`. -/
def digitCount (n : Nat) : Nat := (Nat.toDigits 10 n).length

/-- The nearer of two decimals around `m`, of which `low` is not above it. -/
def nearer (m : Magnitude) (low high : Decimal) : Decimal :=
  let v := Fraction.scaled m.significand 2 m.exponent
  let l := low.fraction
  let h := high.fraction
  -- the distances `v - l` and `h - v` over the common denominator
  let toLow := (v.num * l.den - l.num * v.den) * h.den
  let toHigh := (h.num * v.den - v.num * h.den) * l.den
  if toLow < toHigh ∨ (toLow = toHigh ∧ low.digits % 2 = 0) then low else high

/-- The decimals with `n` digits next to a magnitude that read back as it, if
    any does. -/
def onGrid (m : Magnitude) (top : Int) (n : Nat) : Option Decimal :=
  let power := top - n
  let v := Fraction.scaled m.significand 2 m.exponent
  let cell := Fraction.scaled 1 10 power
  let low : Decimal := ⟨v.num * cell.den / (v.den * cell.num), power⟩
  let high : Decimal := ⟨low.digits + 1, power⟩
  match m.rounds low.fraction && low.digits ≠ 0, m.rounds high.fraction with
  | true, true => some (nearer m low high)
  | true, false => some low
  | false, true => some high
  | false, false => none

/-- The power of ten just above a magnitude: the number of its integer digits,
    or minus the number of zeros that follow the point. -/
def topPower (m : Magnitude) : Int :=
  let v := Fraction.scaled m.significand 2 m.exponent
  let whole := v.num / v.den
  if whole ≠ 0 then digitCount whole
  else
    -- `v < 1`: the smallest `k` with `1 ≤ v · 10 ^ k` is one more than the zeros
    let k := (List.range 400).find? fun k => v.den ≤ v.num * Nat.pow 10 k
    1 - (k.getD 0 : Int)

/-- The shortest decimal that reads back as a positive magnitude. -/
def shortest (m : Magnitude) : Decimal :=
  let top := topPower m
  ((List.range 17).findSome? fun i => onGrid m top (i + 1)).getD ⟨0, 0⟩

/-- A decimal laid out with a point or an exponent. -/
def Decimal.text (d : Decimal) : String :=
  let ds := Nat.toDigits 10 d.digits
  -- trailing zeros carry no information
  let core := (ds.reverse.dropWhile (· == '0')).reverse
  let point : Int := ds.length + d.power
  let zeros (n : Int) := List.replicate n.toNat '0'
  let chars :=
    if -5 < point && point ≤ 0 then '0' :: '.' :: (zeros (-point) ++ core)
    else if 0 < point && point ≤ 16 then
      if core.length ≤ point.toNat then core ++ zeros (point - core.length) ++ ['.', '0']
      else core.take point.toNat ++ '.' :: core.drop point.toNat
    else
      core.take 1 ++ (if core.length ≤ 1 then [] else '.' :: core.drop 1) ++
        'e' :: (if point ≤ 0 then '-' else '+') :: Nat.toDigits 10 (point - 1).natAbs
  String.ofList chars

/-- The text of the finite double with the given bits. -/
def doubleText (bits : UInt64) : String :=
  let m := Magnitude.ofBits bits
  let body := if m.significand = 0 then "0.0" else (shortest m).text
  if 0x8000000000000000 ≤ bits.toNat then "-" ++ body else body

end SchemaLoom.Json
