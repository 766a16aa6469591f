/-
  Runs of code points, the form in which character properties are tabled.

  A run lists every `stride`-th code point from `first` to `last`; stride 2
  covers the alphabets in which capital and small letters alternate.  A table
  is a list of runs with growing `first`, so a look-up stops at the first run
  that starts beyond the code point.  The shortest table is that of the blank
  characters, by which texts are trimmed.
-/

namespace SchemaLoom.Text

/-- The code points `first`, `first + stride`, … up to `last`. -/
structure CodeRun where
  first : Nat
  last : Nat
  stride : Nat
  deriving DecidableEq

/-- Whether the code point `n` belongs to the run. -/
def CodeRun.contains (r : CodeRun) (n : Nat) : Bool :=
  r.first ≤ n && n ≤ r.last && (n - r.first) % r.stride == 0

/-- Whether the code point `n` belongs to a run of the table. -/
def inRuns : List CodeRun → Nat → Bool
  | [], _ => false
  | r :: rs, n => if n < r.first then false else r.contains n || inRuns rs n

/-- A run of code points that a case mapping moves by the same distance. -/
structure CaseRun extends CodeRun where
  shift : Int
  deriving DecidableEq

/-- Where the table moves the code point `n`, if it lists it. -/
def shiftIn : List CaseRun → Nat → Option Nat
  | [], _ => none
  | r :: rs, n =>
    if n < r.first then none
    else if r.contains n then some (n + r.shift).toNat
    else shiftIn rs n

/-- The text that the table gives for the code point `n`, if it lists it. -/
def expansionIn : List (Nat × List Char) → Nat → Option (List Char)
  | [], _ => none
  | (k, cs) :: rest, n => if n < k then none else if n = k then some cs else expansionIn rest n

/-- The code points of `White_Space`. -/
def blankRuns : List CodeRun := [
    ⟨9, 13, 1⟩, ⟨32, 32, 1⟩, ⟨133, 133, 1⟩, ⟨160, 160, 1⟩, ⟨5760, 5760, 1⟩, ⟨8192, 8202, 1⟩,
    ⟨8232, 8233, 1⟩, ⟨8239, 8239, 1⟩, ⟨8287, 8287, 1⟩, ⟨12288, 12288, 1⟩]

/-- Spaces, tabs, line ends and the other characters of `White_Space`. -/
def isBlank (c : Char) : Bool := inRuns blankRuns c.toNat

/-- The text without the blank characters at its two ends. -/
def trim (cs : List Char) : List Char := ((cs.dropWhile isBlank).reverse.dropWhile isBlank).reverse

end SchemaLoom.Text
