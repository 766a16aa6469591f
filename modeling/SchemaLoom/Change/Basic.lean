/-
  Changes between two schemas.

  A change has a type, a target, and the details that are needed to make it.
  The type decides the category and, one case apart, the impact: how much care
  the change asks for.
-/
import SchemaLoom.Schema.Project

namespace SchemaLoom

/-- What kind of change it is. -/
inductive ChangeType where
  | enumAdded
  | enumRemoved
  | enumValueAdded
  | enumValueRemoved
  | helperAdded
  | helperRemoved
  | helperColumnAdded
  | helperColumnRemoved
  | tableAdded
  | tableRemoved
  | tableColumnAdded
  | tableColumnRemoved
  | tableHelperAdded
  | tableHelperRemoved
  | compositePrimaryKeyChanged
  | tableDbNameChanged
  | columnTypeChanged
  | columnPrimaryKeyChanged
  | columnNotNullAdded
  | columnNotNullRemoved
  | columnDefaultChanged
  | columnReferenceChanged
  deriving DecidableEq

/-- Whether something appears, disappears or stays in another form. -/
inductive ChangeCategory where
  | addition
  | removal
  | modification
  deriving DecidableEq

/-- How much care a change asks for. -/
inductive Impact where
  | safe
  | warning
  | breaking
  deriving DecidableEq

namespace ChangeCategory

/-- The categories in their order. -/
def all : List ChangeCategory := [.addition, .removal, .modification]

/-- The name of a category. -/
def name : ChangeCategory → String
  | addition => "addition"
  | removal => "removal"
  | modification => "modification"

end ChangeCategory

namespace Impact

/-- The impacts in their order. -/
def all : List Impact := [.safe, .warning, .breaking]

/-- The name of an impact. -/
def name : Impact → String
  | safe => "safe"
  | warning => "warning"
  | breaking => "breaking"

end Impact

namespace ChangeType

/-- The types in their order. -/
def all : List ChangeType := [
  .enumAdded, .enumRemoved, .enumValueAdded, .enumValueRemoved, .helperAdded, .helperRemoved,
  .helperColumnAdded, .helperColumnRemoved, .tableAdded, .tableRemoved, .tableColumnAdded,
  .tableColumnRemoved, .tableHelperAdded, .tableHelperRemoved, .compositePrimaryKeyChanged,
  .tableDbNameChanged, .columnTypeChanged, .columnPrimaryKeyChanged, .columnNotNullAdded,
  .columnNotNullRemoved, .columnDefaultChanged, .columnReferenceChanged]

/-- The name of a type. -/
def name : ChangeType → String
  | enumAdded => "enum_added"
  | enumRemoved => "enum_removed"
  | enumValueAdded => "enum_value_added"
  | enumValueRemoved => "enum_value_removed"
  | helperAdded => "helper_added"
  | helperRemoved => "helper_removed"
  | helperColumnAdded => "helper_column_added"
  | helperColumnRemoved => "helper_column_removed"
  | tableAdded => "table_added"
  | tableRemoved => "table_removed"
  | tableColumnAdded => "table_column_added"
  | tableColumnRemoved => "table_column_removed"
  | tableHelperAdded => "table_helper_added"
  | tableHelperRemoved => "table_helper_removed"
  | compositePrimaryKeyChanged => "composite_primary_key_changed"
  | tableDbNameChanged => "table_db_name_changed"
  | columnTypeChanged => "column_type_changed"
  | columnPrimaryKeyChanged => "column_primary_key_changed"
  | columnNotNullAdded => "column_not_null_added"
  | columnNotNullRemoved => "column_not_null_removed"
  | columnDefaultChanged => "column_default_changed"
  | columnReferenceChanged => "column_reference_changed"

/-- The category of a type. -/
def category : ChangeType → ChangeCategory
  | enumAdded | enumValueAdded | helperAdded | helperColumnAdded | tableAdded | tableColumnAdded
  | tableHelperAdded => .addition
  | enumRemoved | enumValueRemoved | helperRemoved | helperColumnRemoved | tableRemoved
  | tableColumnRemoved | tableHelperRemoved => .removal
  | compositePrimaryKeyChanged | tableDbNameChanged | columnTypeChanged
  | columnPrimaryKeyChanged | columnNotNullAdded | columnNotNullRemoved | columnDefaultChanged
  | columnReferenceChanged => .modification

/-- The impact of a type.  A column that is added to a table without being
    nullable asks for more care than its type says. -/
def impact : ChangeType → Impact
  | enumAdded | enumValueAdded | helperAdded | helperColumnAdded | tableAdded | tableColumnAdded
  | tableHelperAdded | columnNotNullRemoved | columnDefaultChanged => .safe
  | helperRemoved | helperColumnRemoved | tableHelperRemoved | columnNotNullAdded
  | columnReferenceChanged => .warning
  | enumRemoved | enumValueRemoved | tableRemoved | tableColumnRemoved
  | compositePrimaryKeyChanged | tableDbNameChanged | columnTypeChanged
  | columnPrimaryKeyChanged => .breaking

end ChangeType

/-- The entity that a change is about, and the column, value or helper inside
    it. -/
structure ChangeTarget where
  kind : EntityKind
  entity : String
  member : Option String := none
  deriving DecidableEq

/-- How a target is shown. -/
def ChangeTarget.shown (t : ChangeTarget) : String :=
  t.kind.name ++ " " ++ t.entity ++
    match t.member with
    | some member => "." ++ member
    | none => ""

/-- What is needed to make a change.  A position is an index in the list that
    the item was found in: the new one for additions, the old one for
    removals. -/
inductive ChangeDetails where
  | enum (definition : EnumDef)
  | enumValue (value : String) (position : Nat)
  | helper (definition : HelperDef)
  | table (definition : TableDef)
  | column (definition : Column) (position : Nat)
  | helperReference (helper : String) (position : Nat)
  | compositePrimaryKey (old new : List String)
  | dbName (old new : String)
  | columnChange (old new : Column)
  deriving DecidableEq

/-- A change. -/
structure Change where
  type : ChangeType
  category : ChangeCategory
  impact : Impact
  target : ChangeTarget
  description : String
  details : ChangeDetails
  deriving DecidableEq

/-- A change with the category and the impact of its type. -/
def Change.ofType (type : ChangeType) (target : ChangeTarget) (description : String)
    (details : ChangeDetails) : Change :=
  { type, category := type.category, impact := type.impact, target, description, details }

end SchemaLoom
