/-
  The shapes that JSON values are asked to have.

  A shape is written once, over any `Decoder`; it is then read from a text, with
  the places of its faults, or from a value that is already at hand.  A record
  is given by its `Field`s, each of which sets its part of the record.
-/
import SchemaLoom.Json.Error

namespace SchemaLoom.Json

/-- What it means that a field is not there. -/
inductive Presence where
  /-- The field must be there. -/
  | required
  /-- The field is absent like `null`; an array of fields has to hold it. -/
  | optional
  /-- The field keeps its default. -/
  | defaulted
  deriving DecidableEq

/-- A field of a record of type `σ`: how its value is read into the record. -/
structure Field (m : Type → Type) (σ : Type) where
  name : String
  presence : Presence
  read : σ → m σ

/-- The readers of the shapes. -/
class Decoder (m : Type → Type) extends Monad m where
  /-- Refuses the value at hand. -/
  refuse {α : Type} (fault : DataError) : m α
  /-- Any value. -/
  value : m Value
  /-- A string. -/
  string : m String
  /-- A truth value. -/
  boolean : m Bool
  /-- An integer from 0 to `limit`, the range of the type `wanted`. -/
  natural (limit : Nat) (wanted : String) : m Nat
  /-- A value or `null`. -/
  optional {α : Type} (item : m α) : m (Option α)
  /-- An array. -/
  list {α : Type} (item : m α) : m (List α)
  /-- A record, given as an object or as the array of its fields.  `start`
      holds the defaults. -/
  record {σ : Type} (wanted : String) (fields : List (Field m σ)) (start : σ) : m σ

/-- The type name of an integer of 32 bits without a sign, with its range. -/
def unsigned32 {m : Type → Type} [Decoder m] : m Nat := Decoder.natural 0xffffffff "u32"

/-- The type name of a position, with its range. -/
def position {m : Type → Type} [Decoder m] : m Nat := Decoder.natural 0xffffffffffffffff "usize"

/-- A count of things in a message. -/
def countText (n : Nat) : String := toString n ++ if n = 1 then " element" else " elements"

/-- The fault of an array of fields that ends after `length` of them. -/
def shortRecord (wanted : String) (fieldCount length : Nat) : DataError :=
  .wrongLength length (wanted ++ " with " ++ countText fieldCount)

/-- The first field that must be there and is not among the names `seen`. -/
def missingField? {m : Type → Type} {σ : Type} (fields : List (Field m σ)) (seen : List String) :
    Option String :=
  (fields.find? fun f => f.presence == .required && !seen.contains f.name).map Field.name

/-- The integer of a number inside a range, or what is wrong with it. -/
def Number.inRange (limit : Nat) (wanted : String) (n : Number) : Except DataError Nat :=
  match n with
  | .integer i => if 0 ≤ i ∧ i ≤ limit then .ok i.toNat else .error (.outOfRange i wanted)
  | .double _ => .error (.wrongType (.number n) wanted)

end SchemaLoom.Json
