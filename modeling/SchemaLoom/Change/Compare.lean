/-
  The changes that lead from one schema to another.

  Enums come first, then helpers, then tables.  Of each kind, additions come
  before removals, and the changes inside the entities that both schemas have
  come last, in the order of the new schema.  Lists are compared without regard
  to order.
-/
import SchemaLoom.Change.Basic

namespace SchemaLoom

variable {α : Type}

/-! ## Two lists side by side -/

/-- The elements of `xs`, with their positions, whose name no element of `ys`
    has. -/
def absentFrom (name : α → String) (ys xs : List α) : List (α × Nat) :=
  xs.zipIdx.filter fun x => !ys.any fun y => name y == name x.1

/-- The elements of `new` with the first element of `old` of the same name. -/
def paired (name : α → String) (old new : List α) : List (α × α) :=
  new.filterMap fun n => (old.find? fun o => name o == name n).map fun o => (o, n)

/-- Whether two lists have the same elements. -/
def sameElements (xs ys : List String) : Bool :=
  xs.all ys.contains && ys.all xs.contains

/-- The changes of the entities of one kind. -/
def entityChanges (kind : EntityKind) (label : String) (added removed : ChangeType)
    (name : α → String) (details : α → ChangeDetails) (inside : α → α → List Change)
    (old new : List α) : List Change :=
  let change (type : ChangeType) (verb : String) (x : α × Nat) : Change :=
    .ofType type ⟨kind, name x.1, none⟩ (label ++ " '" ++ name x.1 ++ "' " ++ verb) (details x.1)
  (absentFrom name old new).map (change added "added") ++
    (absentFrom name new old).map (change removed "removed") ++
    (paired name old new).flatMap fun p => inside p.1 p.2

/-! ## Enums -/

/-- The changes of the values of an enum. -/
def valueChanges (old new : EnumDef) : List Change :=
  let change (type : ChangeType) (phrase : String) (v : String × Nat) : Change :=
    .ofType type ⟨.enum, new.name, some v.1⟩
      ("Value '" ++ v.1 ++ "' " ++ phrase ++ " enum '" ++ new.name ++ "'") (.enumValue v.1 v.2)
  (absentFrom id old.values new.values).map (change .enumValueAdded "added to") ++
    (absentFrom id new.values old.values).map (change .enumValueRemoved "removed from")

/-! ## Columns -/

/-- The kind of a column in a description. -/
def kindText (c : Column) : String :=
  match c.kind with
  | .ok kind => kind.shown
  | .error _ => c.typeName.getD "unknown"

/-- The default of a column in a description. -/
def defaultShown (c : Column) : String := (c.options.default.map DefaultValue.shown).getD "none"

/-- The reference of a column in a description. -/
def referenceText (c : Column) : String :=
  (c.options.references.map fun r => r.table ++ "." ++ r.column).getD "none"

/-- Whether a column has another type.  Types are compared by what they resolve
    to, or as they are written if one of them does not resolve. -/
def typeChanged (old new : Column) : Bool :=
  match old.kind, new.kind with
  | .ok a, .ok b => a != b
  | _, _ =>
    old.typeName != new.typeName || old.options.enumName != new.options.enumName ||
      old.options.length != new.options.length

/-- The types of the changes of a column that both sides have, each with its
    description of the column called `label`. -/
def columnModifications (label : String) (old new : Column) : List (ChangeType × String) :=
  let column := "Column '" ++ label ++ "' "
  (if typeChanged old new then
    [(.columnTypeChanged,
      column ++ "type changed from " ++ kindText old ++ " to " ++ kindText new)] else []) ++
  (if old.options.primaryKey ≠ new.options.primaryKey then
    [(.columnPrimaryKeyChanged,
      column ++ if new.options.primaryKey then "became a primary key"
        else "is no longer a primary key")] else []) ++
  (match old.options.notNull, new.options.notNull with
    | false, true => [(.columnNotNullAdded, column ++ "is now NOT NULL")]
    | true, false => [(.columnNotNullRemoved, column ++ "is now nullable")]
    | _, _ => []) ++
  (if old.options.default ≠ new.options.default then
    [(.columnDefaultChanged,
      column ++ "default changed from " ++ defaultShown old ++ " to " ++ defaultShown new)]
    else []) ++
  if old.options.references ≠ new.options.references then
    [(.columnReferenceChanged,
      column ++ "reference changed from " ++ referenceText old ++ " to " ++ referenceText new)]
    else []

/-- The changes of a column that both sides have. -/
def columnChanges (kind : EntityKind) (entity : String) (old new : Column) : List Change :=
  (columnModifications (entity ++ "." ++ new.name) old new).map fun m =>
    .ofType m.1 ⟨kind, entity, some new.name⟩ m.2 (.columnChange old new)

/-- The changes of the columns that both sides have. -/
def pairedColumnChanges (kind : EntityKind) (entity : String) (old new : List Column) :
    List Change :=
  (paired Column.name old new).flatMap fun p => columnChanges kind entity p.1 p.2

/-- An added column.  The rows of a table have no value for a column that must
    not be null. -/
def columnAddition (kind : EntityKind) (entity : String) (type : ChangeType) (c : Column × Nat) :
    Change :=
  let change := Change.ofType type ⟨kind, entity, some c.1.name⟩
    ((if c.1.options.notNull then "NOT NULL column '" else "Column '") ++ c.1.name ++
      "' added to " ++ kind.name ++ " '" ++ entity ++ "'")
    (.column c.1 c.2)
  if type = .tableColumnAdded ∧ c.1.options.notNull then { change with impact := .warning }
  else change

/-- A removed column. -/
def columnRemoval (kind : EntityKind) (entity : String) (type : ChangeType) (c : Column × Nat) :
    Change :=
  .ofType type ⟨kind, entity, some c.1.name⟩
    ("Column '" ++ c.1.name ++ "' removed from " ++ kind.name ++ " '" ++ entity ++ "'")
    (.column c.1 c.2)

/-- The columns that are added to or removed from a helper or a table. -/
def memberColumnChanges (kind : EntityKind) (entity : String) (added removed : ChangeType)
    (old new : List Column) : List Change :=
  (absentFrom Column.name old new).map (columnAddition kind entity added) ++
    (absentFrom Column.name new old).map (columnRemoval kind entity removed)

/-! ## Helpers and tables -/

/-- The changes inside a helper. -/
def helperChanges (old new : HelperDef) : List Change :=
  memberColumnChanges .helper new.name .helperColumnAdded .helperColumnRemoved
      old.columns new.columns ++
    pairedColumnChanges .helper new.name old.columns new.columns

/-- The changes of the helpers that a table spreads. -/
def helperReferenceChanges (old new : TableDef) : List Change :=
  let change (type : ChangeType) (phrase : String) (h : String × Nat) : Change :=
    .ofType type ⟨.table, new.name, some h.1⟩
      ("Helper '" ++ h.1 ++ "' " ++ phrase ++ " table '" ++ new.name ++ "'")
      (.helperReference h.1 h.2)
  (absentFrom id old.helperReferences new.helperReferences).map
      (change .tableHelperAdded "added to") ++
    (absentFrom id new.helperReferences old.helperReferences).map
      (change .tableHelperRemoved "removed from")

/-- The change of the composite key of a table. -/
def compositeKeyChange (old new : TableDef) : List Change :=
  let before := old.compositeKey.getD []
  let after := new.compositeKey.getD []
  if sameElements before after then []
  else
    [.ofType .compositePrimaryKeyChanged ⟨.table, new.name, none⟩
      ("Composite primary key of table '" ++ new.name ++ "' changed from [" ++
        ", ".intercalate before ++ "] to [" ++ ", ".intercalate after ++ "]")
      (.compositePrimaryKey before after)]

/-- The change of the name of a table in the database. -/
def dbNameChange (old new : TableDef) : List Change :=
  let before := old.databaseName
  let after := new.databaseName
  if before = after then []
  else
    [.ofType .tableDbNameChanged ⟨.table, new.name, none⟩
      ("Table '" ++ new.name ++ "' database name changed from '" ++ before ++ "' to '" ++
        after ++ "'")
      (.dbName before after)]

/-- The changes inside a table. -/
def tableChanges (old new : TableDef) : List Change :=
  memberColumnChanges .table new.name .tableColumnAdded .tableColumnRemoved
      old.columns new.columns ++
    helperReferenceChanges old new ++ compositeKeyChange old new ++ dbNameChange old new ++
    pairedColumnChanges .table new.name old.columns new.columns

/-- The changes that lead from one schema to another. -/
def Schema.changesTo (old new : Schema) : List Change :=
  entityChanges .enum "Enum" .enumAdded .enumRemoved EnumDef.name .enum valueChanges
      old.enums new.enums ++
    entityChanges .helper "Helper" .helperAdded .helperRemoved HelperDef.name .helper
      helperChanges old.helpers new.helpers ++
    entityChanges .table "Table" .tableAdded .tableRemoved TableDef.name .table tableChanges
      old.tables new.tables

end SchemaLoom
