/-
  Which changes may be made.
-/
import SchemaLoom.Change.Basic

namespace SchemaLoom

/-- What a policy allows.  Safe changes are always allowed. -/
structure Policy where
  allowBreaking : Bool := false
  allowWarning : Bool := true
  /-- Whether changes are only looked at. -/
  dryRun : Bool := false
  deriving DecidableEq

/-- Whether changes of an impact may be made. -/
def Policy.permits (p : Policy) : Impact → Bool
  | .safe => true
  | .warning => p.allowWarning
  | .breaking => p.allowBreaking

/-- The changes that may be made and those that may not, both in order. -/
def Policy.partition (p : Policy) (changes : List Change) : List Change × List Change :=
  changes.partition fun c => p.permits c.impact

end SchemaLoom
