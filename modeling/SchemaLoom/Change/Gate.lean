/-
  The gate between a comparison and a project.

  The changes that a policy permits are handed over to be made, all together
  and in order; a dry run hands nothing over, and neither does a comparison
  without permitted changes.
-/
import SchemaLoom.Change.Policy
import SchemaLoom.Files.Path

namespace SchemaLoom

/-- The files that were rewritten to make some changes. -/
structure MaterializeReport where
  filesWritten : List Path
  filesRemoved : List Path
  deriving DecidableEq

/-- What became of some changes. -/
structure ApplyResult where
  applied : List Change
  rejected : List Change
  projectPath : Path
  dryRun : Bool
  /-- The files that were rewritten, if the permitted changes were made. -/
  materialized : Option MaterializeReport
  /-- Why the permitted changes could not be made. -/
  error : Option String
  deriving DecidableEq

/-- Whether nothing went wrong. -/
def ApplyResult.success (r : ApplyResult) : Bool := r.error.isNone

/-- Hands the permitted changes over to `materialize`, unless there is nothing
    to do. -/
def Policy.gate {m : Type → Type} [Monad m] (p : Policy) (projectPath : Path)
    (changes : List Change) (materialize : List Change → m (Except String MaterializeReport)) :
    m ApplyResult := do
  let (applied, rejected) := p.partition changes
  let result (materialized : Option MaterializeReport) (error : Option String) : ApplyResult :=
    { applied, rejected, projectPath, dryRun := p.dryRun, materialized, error }
  if p.dryRun || applied.isEmpty then pure (result none none)
  else
    match ← materialize applied with
    | .ok report => pure (result (some report) none)
    | .error message => pure (result none (some message))

end SchemaLoom
