/-
  The entities that changes touch.

  An entity that is removed and added again is affected, and one that is
  removed at last is removed: the last change of an entity counts.
-/
import SchemaLoom.Change.Basic

namespace SchemaLoom

/-- An entity by its kind and name. -/
structure EntityRef where
  kind : EntityKind
  name : String
  deriving DecidableEq

/-- The entity that a change is about. -/
def Change.entity (c : Change) : EntityRef := ⟨c.target.kind, c.target.entity⟩

/-- Whether a type of changes takes an entity away. -/
def ChangeType.removesEntity : ChangeType → Bool
  | enumRemoved | helperRemoved | tableRemoved => true
  | _ => false

/-- The entities that are there after some changes and those that are gone. -/
structure Footprint where
  affected : List EntityRef := []
  removed : List EntityRef := []
  deriving DecidableEq

namespace Footprint

/-- Records one change more. -/
def add (f : Footprint) (c : Change) : Footprint :=
  let others (refs : List EntityRef) := refs.filter fun r => r ≠ c.entity
  if c.type.removesEntity then
    { affected := others f.affected, removed := c.entity :: others f.removed }
  else { affected := c.entity :: others f.affected, removed := others f.removed }

/-- What changes touch. -/
def ofChanges (changes : List Change) : Footprint := changes.foldl add {}

end Footprint

/-- Entities ordered by kind and name. -/
def inEntityOrder (refs : List EntityRef) : List EntityRef :=
  EntityKind.all.flatMap fun kind =>
    ((refs.filter fun r => r.kind = kind).map EntityRef.name).mergeSort.map (EntityRef.mk kind)

end SchemaLoom
