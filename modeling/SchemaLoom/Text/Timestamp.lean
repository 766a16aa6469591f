/-
  Points in time as texts, such as `2024-02-29T12:30:05.250Z`.
-/

namespace SchemaLoom.Text

/-- A number with at least so many digits. -/
def padded (width n : Nat) : String :=
  let digits := Nat.toDigits 10 n
  String.ofList (List.replicate (width - digits.length) '0' ++ digits)

/-- The year, the month and the day that so many days after 1970-01-01 are.
    Years are counted from March on, so that a leap day is the last one. -/
def dateOfDays (days : Int) : Int × Nat × Nat :=
  let shifted := days + 719468
  let era := shifted.fdiv 146097
  let dayOfEra := (shifted - era * 146097).toNat
  let yearOfEra :=
    (dayOfEra - dayOfEra / 1460 + dayOfEra / 36524 - dayOfEra / 146096) / 365
  let dayOfYear := dayOfEra - (365 * yearOfEra + yearOfEra / 4 - yearOfEra / 100)
  let fromMarch := (5 * dayOfYear + 2) / 153
  let day := dayOfYear - (153 * fromMarch + 2) / 5 + 1
  let month := if fromMarch < 10 then fromMarch + 3 else fromMarch - 9
  (yearOfEra + era * 400 + (if month ≤ 2 then 1 else 0), month, day)

/-- The part of a second, in the fewest groups of three digits. -/
def fractionText (nanoseconds : Nat) : String :=
  if nanoseconds = 0 then ""
  else if nanoseconds % 1000000 = 0 then "." ++ padded 3 (nanoseconds / 1000000)
  else if nanoseconds % 1000 = 0 then "." ++ padded 6 (nanoseconds / 1000)
  else "." ++ padded 9 nanoseconds

/-- The text of the point in time so many seconds and nanoseconds after the
    start of 1970. -/
def timestamp (seconds : Int) (nanoseconds : Nat) : String :=
  let (year, month, day) := dateOfDays (seconds.fdiv 86400)
  let second := (seconds.fmod 86400).toNat
  padded 4 year.toNat ++ "-" ++ padded 2 month ++ "-" ++ padded 2 day ++ "T" ++
    padded 2 (second / 3600) ++ ":" ++ padded 2 (second / 60 % 60) ++ ":" ++
    padded 2 (second % 60) ++ fractionText nanoseconds ++ "Z"

example : timestamp 1709209805 250000000 = "2024-02-29T12:30:05.250Z" := by decide +kernel

example : timestamp (-1) 0 = "1969-12-31T23:59:59Z" := by decide +kernel

end SchemaLoom.Text
