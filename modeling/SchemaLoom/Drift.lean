/-
  Drift: whether a generated project still is what its schema says.

  Both sides are compared in their canonical forms, so spellings that
  generation does not keep are no drift.
-/
import SchemaLoom.Change.Compare
import SchemaLoom.Schema.Fingerprint

namespace SchemaLoom

/-- What a look for drift found. -/
structure DriftReport where
  hasDrift : Bool
  expectedFingerprint : String
  actualFingerprint : String
  /-- The changes that would bring the project to its schema. -/
  differences : List Change
  deriving DecidableEq

/-- The drift of a project from the schema that is expected. -/
def Schema.driftOf (expected actual : Schema) : DriftReport :=
  let hasDrift := expected.fingerprint != actual.fingerprint
  { hasDrift
    expectedFingerprint := expected.fingerprint
    actualFingerprint := actual.fingerprint
    differences := if hasDrift then actual.canonical.changesTo expected.canonical else [] }

end SchemaLoom
