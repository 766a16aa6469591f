/-
  Comparisons: changes with their summary and advice, and the report of a
  comparison.
-/
import SchemaLoom.Change.Compare

namespace SchemaLoom

/-- How many changes there are, in all and of each category, impact and type.
    The lists are in the order of their keys. -/
structure ChangeSummary where
  total : Nat
  byCategory : List (ChangeCategory × Nat)
  byImpact : List (Impact × Nat)
  byType : List (ChangeType × Nat)
  deriving DecidableEq

/-- Whether there are changes of each impact. -/
structure CanApply where
  safe : Bool
  warning : Bool
  breaking : Bool
  deriving DecidableEq

/-- Changes with their summary and advice. -/
structure Comparison where
  changes : List Change
  summary : ChangeSummary
  recommendations : List String
  canApply : CanApply
  deriving DecidableEq

/-- The keys that occur among the changes, in the order of `keys`, with how
    often they do. -/
def tally {κ : Type} [DecidableEq κ] (keys : List κ) (key : Change → κ) (changes : List Change) :
    List (κ × Nat) :=
  (keys.map fun k => (k, changes.countP fun c => key c = k)).filter fun p => p.2 ≠ 0

/-- The summary of some changes. -/
def ChangeSummary.of (changes : List Change) : ChangeSummary where
  total := changes.length
  byCategory := tally ChangeCategory.all Change.category changes
  byImpact := tally Impact.all Change.impact changes
  byType := tally ChangeType.all Change.type changes

/-- How many changes of an impact a summary counts. -/
def ChangeSummary.ofImpact (s : ChangeSummary) (i : Impact) : Nat := (s.byImpact.lookup i).getD 0

/-- The changes of an impact. -/
def withImpact (i : Impact) (changes : List Change) : List Change :=
  changes.filter fun c => c.impact = i

/-- Which impacts occur. -/
def CanApply.of (changes : List Change) : CanApply where
  safe := changes.any fun c => c.impact = .safe
  warning := changes.any fun c => c.impact = .warning
  breaking := changes.any fun c => c.impact = .breaking

/-- A line of advice that is given on a condition. -/
def adviceIf (b : Bool) (advice : String) : List String := if b then [advice] else []

/-- Advice for breaking changes. -/
def breakingAdvice (changes : List Change) : List String :=
  let has (t : ChangeType) := changes.any fun c => c.type = t
  "Breaking changes detected: review carefully before applying and prefer a staged rollout." ::
    (adviceIf (has .tableRemoved) "Back up data from removed tables before applying." ++
      adviceIf (has .tableColumnRemoved || has .helperColumnRemoved)
        "Plan a data migration for removed columns.")

/-- Advice for changes that ask for a review. -/
def warningAdvice (changes : List Change) : List String :=
  "Warning-level changes detected: review them before applying." ::
    adviceIf (changes.any fun c => c.type = .tableColumnAdded ∧ c.impact = .warning)
      "Provide default values for new NOT NULL columns to avoid failures on existing rows."

/-- Advice for some changes. -/
def recommend (changes : List Change) : List String :=
  let count (i : Impact) := (withImpact i changes).length
  if changes.isEmpty then ["No changes detected."]
  else
    (if 0 < count .breaking then breakingAdvice changes else []) ++
      (if 0 < count .warning then warningAdvice changes else []) ++
      adviceIf (0 < count .safe)
        (toString (count .safe) ++ " safe change(s) can be applied automatically.")

/-- Some changes as a comparison. -/
def Comparison.ofChanges (changes : List Change) : Comparison where
  changes := changes
  summary := .of changes
  recommendations := recommend changes
  canApply := .of changes

/-- The comparison of two schemas. -/
def Schema.compare (old new : Schema) : Comparison := .ofChanges (old.changesTo new)

/-- Whether there are changes. -/
def Comparison.hasChanges (c : Comparison) : Bool := !c.changes.isEmpty

/-! ## Reports -/

/-- A text filled up with blanks to a width. -/
def padRight (width : Nat) (s : String) : String :=
  s ++ String.ofList (List.replicate (width - s.length) ' ')

/-- The line of a change in a report. -/
def changeLine (c : Change) : String :=
  "  [" ++ padRight 8 c.impact.name ++ "] " ++ padRight 30 c.type.name ++ " " ++ c.description ++
    "\n"

/-- The report of a comparison: the counts of its summary, its changes and its
    advice. -/
def Comparison.report (c : Comparison) : String :=
  let count (i : Impact) := toString (c.summary.ofImpact i)
  toString c.summary.total ++ " change(s): " ++ count .safe ++ " safe, " ++ count .warning ++
    " warning, " ++ count .breaking ++ " breaking\n" ++
    (if c.changes.isEmpty then "" else "\n" ++ String.join (c.changes.map changeLine)) ++
    "\nRecommendations:\n" ++
    String.join (c.recommendations.map fun r => "  - " ++ r ++ "\n")

end SchemaLoom
