/-
  Making changes in a schema.

  A change of a column sets only the parts that its type names, so a column may
  become nullable while another change of its type is left out.
-/
import SchemaLoom.Change.Basic

namespace SchemaLoom

/-- Why a change cannot be made. -/
inductive MergeError where
  | alreadyExists (target : ChangeTarget)
  | missing (target : ChangeTarget)
  /-- Enums have no columns. -/
  | noColumns (enumName : String)
  | mismatchedDetails (type : ChangeType) (target : ChangeTarget)
  | notColumnModification (type : ChangeType) (target : ChangeTarget)
  deriving DecidableEq

/-- The wording of each fault. -/
def MergeError.message : MergeError → String
  | alreadyExists target => target.shown ++ " already exists"
  | missing target => target.shown ++ " does not exist in the project"
  | noColumns enumName => "Enum " ++ enumName ++ " has no columns"
  | mismatchedDetails type target =>
    "Change " ++ type.name ++ " on " ++ target.shown ++ " carries mismatched details"
  | notColumnModification type target =>
    "Change " ++ type.name ++ " on " ++ target.shown ++ " is not a column modification"

variable {α : Type}

/-! ## Lists -/

/-- Changes the first element that satisfies `p`. -/
def updateFirst (p : α → Bool) (f : α → Except MergeError α) (target : ChangeTarget) :
    List α → Except MergeError (List α)
  | [] => .error (.missing target)
  | a :: as =>
    if p a then (f a).map (· :: as) else (updateFirst p f target as).map (a :: ·)

/-- Removes the first element that satisfies `p`. -/
def removeFirst (p : α → Bool) (target : ChangeTarget) (as : List α) :
    Except MergeError (List α) :=
  if as.any p then .ok (as.eraseP p) else .error (.missing target)

/-- Puts an element at a position, or at the end of a shorter list. -/
def insertAt (position : Nat) (a : α) (as : List α) : List α :=
  as.insertIdx (min position as.length) a

/-- Puts an element at a position, unless one that satisfies `p` is there. -/
def insertNew (p : α → Bool) (position : Nat) (a : α) (target : ChangeTarget) (as : List α) :
    Except MergeError (List α) :=
  if as.any p then .error (.alreadyExists target) else .ok (insertAt position a as)

/-- Adds an element at the end, unless one that satisfies `p` is there. -/
def appendNew (p : α → Bool) (a : α) (target : ChangeTarget) (as : List α) :
    Except MergeError (List α) :=
  if as.any p then .error (.alreadyExists target) else .ok (as ++ [a])

/-! ## Parts of a schema -/

namespace Schema

/-- Changes the enum that a target names. -/
def updateEnum (s : Schema) (target : ChangeTarget) (f : EnumDef → Except MergeError EnumDef) :
    Except MergeError Schema :=
  (updateFirst (fun e => e.name == target.entity) f target s.enums).map fun enums =>
    { s with enums }

/-- Changes the table that a target names. -/
def updateTable (s : Schema) (target : ChangeTarget)
    (f : TableDef → Except MergeError TableDef) : Except MergeError Schema :=
  (updateFirst (fun t => t.name == target.entity) f target s.tables).map fun tables =>
    { s with tables }

/-- Changes the columns of the helper or table that a target names. -/
def updateColumns (s : Schema) (target : ChangeTarget)
    (f : List Column → Except MergeError (List Column)) : Except MergeError Schema :=
  match target.kind with
  | .enum => .error (.noColumns target.entity)
  | .helper =>
    (updateFirst (fun h => h.name == target.entity)
      (fun h => (f h.columns).map fun columns => { h with columns }) target s.helpers).map
        fun helpers => { s with helpers }
  | .table => s.updateTable target fun t => (f t.columns).map fun columns => { t with columns }

end Schema

/-- The column with the parts set that a type of change names. -/
def Column.patch (type : ChangeType) (target : ChangeTarget) (new column : Column) :
    Except MergeError Column :=
  let options := column.options
  match type with
  | .columnTypeChanged =>
    .ok { column with
      typeName := new.typeName
      options := { options with
        enumName := new.options.enumName
        length := new.options.length } }
  | .columnPrimaryKeyChanged =>
    .ok { column with options := { options with primaryKey := new.options.primaryKey } }
  | .columnNotNullAdded | .columnNotNullRemoved =>
    .ok { column with options := { options with notNull := new.options.notNull } }
  | .columnDefaultChanged =>
    .ok { column with options := { options with default := new.options.default } }
  | .columnReferenceChanged =>
    .ok { column with options := { options with references := new.options.references } }
  | _ => .error (.notColumnModification type target)

/-! ## Changes -/

/-- Makes a change in a schema. -/
def Change.apply (c : Change) (s : Schema) : Except MergeError Schema :=
  let target := c.target
  let mismatched : Except MergeError Schema := .error (.mismatchedDetails c.type target)
  match c.details with
  | .enum definition =>
    match c.type with
    | .enumAdded =>
      (appendNew (fun e => e.name == definition.name) definition target s.enums).map fun enums =>
        { s with enums }
    | .enumRemoved =>
      (removeFirst (fun e => e.name == target.entity) target s.enums).map fun enums =>
        { s with enums }
    | _ => mismatched
  | .enumValue value position =>
    match c.type with
    | .enumValueAdded => s.updateEnum target fun e =>
        (insertNew (· == value) position value target e.values).map fun values =>
          { e with values }
    | .enumValueRemoved => s.updateEnum target fun e =>
        (removeFirst (· == value) target e.values).map fun values => { e with values }
    | _ => mismatched
  | .helper definition =>
    match c.type with
    | .helperAdded =>
      (appendNew (fun h => h.name == definition.name) definition target s.helpers).map
        fun helpers => { s with helpers }
    | .helperRemoved =>
      (removeFirst (fun h => h.name == target.entity) target s.helpers).map fun helpers =>
        { s with helpers }
    | _ => mismatched
  | .table definition =>
    match c.type with
    | .tableAdded =>
      (appendNew (fun t => t.name == definition.name) definition target s.tables).map
        fun tables => { s with tables }
    | .tableRemoved =>
      (removeFirst (fun t => t.name == target.entity) target s.tables).map fun tables =>
        { s with tables }
    | _ => mismatched
  | .column definition position =>
    match c.type with
    | .helperColumnAdded | .tableColumnAdded =>
      s.updateColumns target
        (insertNew (fun k => k.name == definition.name) position definition target)
    | .helperColumnRemoved | .tableColumnRemoved =>
      s.updateColumns target (removeFirst (fun k => k.name == definition.name) target)
    | _ => mismatched
  | .helperReference helper position =>
    match c.type with
    | .tableHelperAdded => s.updateTable target fun t =>
        (insertNew (· == helper) position helper target t.helperReferences).map
          fun helperReferences => { t with helperReferences }
    | .tableHelperRemoved => s.updateTable target fun t =>
        (removeFirst (· == helper) target t.helperReferences).map fun helperReferences =>
          { t with helperReferences }
    | _ => mismatched
  | .compositePrimaryKey _ new =>
    match c.type with
    | .compositePrimaryKeyChanged => s.updateTable target fun t =>
        .ok { t with compositePrimaryKey := new }
    | _ => mismatched
  | .dbName _ new =>
    match c.type with
    | .tableDbNameChanged => s.updateTable target fun t =>
        .ok { t with dbName := if new = Text.snakeCase t.name then none else some new }
    | _ => mismatched
  | .columnChange _ new =>
    s.updateColumns target
      (updateFirst (fun k => k.name == target.member.getD "") (Column.patch c.type target new)
        target)

/-- Makes changes in a schema, one after the other. -/
def Schema.merge (s : Schema) (changes : List Change) : Except MergeError Schema :=
  changes.foldlM (fun s c => c.apply s) s

end SchemaLoom
