/-
  What some of the changes between two schemas make of the old one.

  The changes inside an enum, a helper or a table are made list by list, and a
  column takes from the new one what the changes name (`Column.taking`).

  * `Schema.merge_changesTo`: for schemas without repetition, the changes that
    are let through can be made, and make `Schema.replayed`.
-/
import Mathlib.Tactic.Tauto
import SchemaLoom.Proofs.Change.EntityReplay

namespace SchemaLoom

variable (p : Change → Bool)

/-! ## Columns -/

namespace Column

/-- The column with the parts of another one that some types of changes name. -/
def taking (types : List ChangeType) (new c : Column) : Column :=
  { name := c.name
    typeName := if .columnTypeChanged ∈ types then new.typeName else c.typeName
    options := {
      notNull := if .columnNotNullAdded ∈ types ∨ .columnNotNullRemoved ∈ types then
        new.options.notNull else c.options.notNull
      primaryKey := if .columnPrimaryKeyChanged ∈ types then new.options.primaryKey
        else c.options.primaryKey
      default := if .columnDefaultChanged ∈ types then new.options.default else c.options.default
      length := if .columnTypeChanged ∈ types then new.options.length else c.options.length
      enumName := if .columnTypeChanged ∈ types then new.options.enumName
        else c.options.enumName
      references := if .columnReferenceChanged ∈ types then new.options.references
        else c.options.references } }

theorem name_taking (types : List ChangeType) (new c : Column) :
    (taking types new c).name = c.name :=
  rfl

theorem ite_ite_or {α : Type} {P Q R : Prop} [Decidable P] [Decidable Q] [Decidable R] (x y : α)
    (h : R ↔ Q ∨ P) : (if P then x else if Q then x else y) = if R then x else y := by
  by_cases hp : P
  · rw [if_pos hp, if_pos (h.2 (.inr hp))]
  · rw [if_neg hp]
    by_cases hq : Q
    · rw [if_pos hq, if_pos (h.2 (.inl hq))]
    · rw [if_neg hq, if_neg fun hr => (h.1 hr).elim hq hp]

theorem taking_cons (t : ChangeType) (types : List ChangeType) (new c : Column) :
    taking types new (taking [t] new c) = taking (t :: types) new c := by
  have hm : ∀ a : ChangeType, a ∈ t :: types ↔ a ∈ [t] ∨ a ∈ types := by simp
  have hn : (.columnNotNullAdded ∈ t :: types ∨ .columnNotNullRemoved ∈ t :: types) ↔
      (ChangeType.columnNotNullAdded ∈ [t] ∨ .columnNotNullRemoved ∈ [t]) ∨
        (.columnNotNullAdded ∈ types ∨ .columnNotNullRemoved ∈ types) := by
    simp only [hm]
    tauto
  simp only [taking, ite_ite_or _ _ (hm _), ite_ite_or _ _ hn]

theorem patch_eq_taking {t : ChangeType} (ht : t ∈ columnTypes) (target : ChangeTarget)
    (new c : Column) : patch t target new c = .ok (taking [t] new c) := by
  simp only [columnTypes, List.mem_cons, List.not_mem_nil, or_false] at ht
  rcases ht with rfl | rfl | rfl | rfl | rfl | rfl <;> simp [patch, taking]

/-- Changes of a column to `new`, one after the other. -/
theorem foldlM_makeChange {cs : List Change} {new : Column}
    (hcs : ∀ c ∈ cs, c.type ∈ columnTypes ∧ ∃ old, c.details = .columnChange old new) (c : Column) :
    cs.foldlM makeChange c = .ok (taking (cs.map Change.type) new c) := by
  induction cs generalizing c with
  | nil => rfl
  | cons d cs ih =>
    rw [List.forall_mem_cons] at hcs
    obtain ⟨⟨ht, old, hd⟩, hcs⟩ := hcs
    have hmake : c.makeChange d = .ok (taking [d.type] new c) := by
      rw [makeChange, hd]
      exact patch_eq_taking ht d.target new c
    rw [List.foldlM_cons, hmake, List.map_cons, ← taking_cons d.type (cs.map Change.type)]
    exact ih hcs _

/-- What the changes between two columns that are let through make of the
    first. -/
def replayed (kind : EntityKind) (entity : String) (q : Column × Column) : Column :=
  taking (((columnChanges kind entity q.1 q.2).filter p).map Change.type) q.2 q.1

theorem name_replayed (kind : EntityKind) (entity : String) (q : Column × Column) :
    (replayed p kind entity q).name = q.1.name := by
  rw [replayed, name_taking]

theorem foldlM_columnChanges (kind : EntityKind) (entity : String) (o n c : Column) :
    ((columnChanges kind entity o n).filter p).foldlM makeChange c =
      .ok (taking (((columnChanges kind entity o n).filter p).map Change.type) n c) := by
  refine foldlM_makeChange (fun d hd => ?_) c
  have hd := List.mem_of_mem_filter hd
  refine ⟨typesIn_columnChanges d hd, o, ?_⟩
  obtain ⟨m, -, rfl⟩ := List.mem_map.1 hd
  rfl

end Column

/-! ## Inside entities -/

/-- What changes of the values of an enum make of it. -/
theorem EnumDef.foldlM_makeChange (cs : List Change) (e : EnumDef) :
    cs.foldlM makeChange e = (cs.foldlM (makeName .enumValueAdded) e.values).map
      fun values => { e with values } :=
  foldlM_part EnumDef.values (fun e values => { e with values }) (fun _ _ => rfl)
    (fun _ _ _ => rfl) (fun _ => rfl) _ cs e

/-- What changes of the columns of a helper make of it. -/
theorem HelperDef.foldlM_makeChange (cs : List Change) (h : HelperDef) :
    cs.foldlM makeChange h = (cs.foldlM (makeColumn .helperColumnAdded) h.columns).map
      fun columns => { h with columns } :=
  foldlM_part HelperDef.columns (fun h columns => { h with columns }) (fun _ _ => rfl)
    (fun _ _ _ => rfl) (fun _ => rfl) _ cs h

namespace TableDef

variable {o n t : TableDef}

/-- What changes of the columns of a table make of it. -/
theorem foldlM_columns {cs : List Change}
    (hcs : ∀ c ∈ cs, c ∈ tableMemberChanges o n ∨ c ∈ tablePairChanges o n) (t : TableDef) :
    cs.foldlM makeChange t = (cs.foldlM (makeColumn .tableColumnAdded) t.columns).map
      fun columns => { t with columns } :=
  (foldlM_congr (fun c hc t => makeChange_columns (hcs c hc) t) t).trans
    (foldlM_part TableDef.columns (fun t columns => { t with columns }) (fun _ _ => rfl)
      (fun _ _ _ => rfl) (fun _ => rfl) _ cs t)

/-- What changes of the helpers of a table make of it. -/
theorem foldlM_references {cs : List Change} (hcs : ∀ c ∈ cs, c ∈ helperReferenceChanges o n)
    (t : TableDef) : cs.foldlM makeChange t =
      (cs.foldlM (makeName .tableHelperAdded) t.helperReferences).map
        fun helperReferences => { t with helperReferences } := by
  refine (foldlM_congr (fun c hc t => ?_) t).trans
    (foldlM_part TableDef.helperReferences (fun t helperReferences => { t with helperReferences })
      (fun _ _ => rfl) (fun _ _ _ => rfl) (fun _ => rfl) _ cs t)
  rcases List.mem_append.1 (hcs c hc) with hc | hc
  · obtain ⟨x, -, rfl⟩ := List.mem_map.1 hc
    rfl
  · obtain ⟨x, -, rfl⟩ := List.mem_map.1 hc
    rfl

/-- The composite key after the changes that are let through. -/
def keyAfter (o n t : TableDef) : List String :=
  if (compositeKeyChange o n).filter p = [] then t.compositePrimaryKey else n.compositeKey.getD []

/-- The name in the database after the changes that are let through, as far as
    it is not derived. -/
def dbNameAfter (o n t : TableDef) : Option String :=
  if (dbNameChange o n).filter p = [] then t.dbName
  else if n.databaseName = Text.snakeCase t.name then none else some n.databaseName

theorem foldlM_compositeKey (o n t : TableDef) :
    ((compositeKeyChange o n).filter p).foldlM makeChange t =
      .ok { t with compositePrimaryKey := keyAfter p o n t } := by
  rw [keyAfter, compositeKeyChange]
  split
  · rfl
  · rw [List.filter_cons]
    split <;> rfl

theorem foldlM_dbName (o n t : TableDef) :
    ((dbNameChange o n).filter p).foldlM makeChange t =
      .ok { t with dbName := dbNameAfter p o n t } := by
  rw [dbNameAfter, dbNameChange]
  split
  · rfl
  · rw [List.filter_cons]
    split <;> rfl

/-- **What the changes inside a table make of it**, list by list. -/
theorem foldlM_makeChange {b : TableDef} :
    ((tableChanges o n).filter p).foldlM makeChange t = .ok b ↔ ∃ columns references columns',
      ((tableMemberChanges o n).filter p).foldlM (makeColumn .tableColumnAdded) t.columns =
        .ok columns ∧
      ((helperReferenceChanges o n).filter p).foldlM (makeName .tableHelperAdded)
        t.helperReferences = .ok references ∧
      ((tablePairChanges o n).filter p).foldlM (makeColumn .tableColumnAdded) columns =
        .ok columns' ∧
      b = { t with
        dbName := dbNameAfter p o n t
        columns := columns'
        helperReferences := references
        compositePrimaryKey := keyAfter p o n t } := by
  have hparts : tableChanges o n = tableMemberChanges o n ++ helperReferenceChanges o n ++
    compositeKeyChange o n ++ dbNameChange o n ++ tablePairChanges o n := rfl
  have hmembers : ∀ t, ((tableMemberChanges o n).filter p).foldlM makeChange t = _ := fun t =>
    foldlM_columns (fun c hc => .inl (List.mem_of_mem_filter hc)) t
  have hrefs : ∀ t, ((helperReferenceChanges o n).filter p).foldlM makeChange t = _ := fun t =>
    foldlM_references (fun c hc => List.mem_of_mem_filter hc) t
  have hpairs : ∀ t, ((tablePairChanges o n).filter p).foldlM makeChange t = _ := fun t =>
    foldlM_columns (fun c hc => .inr (List.mem_of_mem_filter hc)) t
  simp only [hparts, List.filter_append, List.foldlM_append, bind_eq_ok, hmembers, hrefs,
    map_eq_ok_iff, foldlM_compositeKey, foldlM_dbName, hpairs]
  constructor
  · rintro ⟨_, ⟨_, ⟨_, ⟨_, ⟨columns, hc, rfl⟩, references, hr, rfl⟩, he⟩, hf⟩, columns', hp, rfl⟩
    cases he
    cases hf
    exact ⟨columns, references, columns', hc, hr, hp, rfl⟩
  · rintro ⟨columns, references, columns', hc, hr, hp, rfl⟩
    exact ⟨_, ⟨_, ⟨_, ⟨_, ⟨columns, hc, rfl⟩, references, hr, rfl⟩, rfl⟩, rfl⟩, columns', hp, rfl⟩

end TableDef

/-! ## Schemas without repetition -/

/-- What the changes between two enums that are let through make of the
    first. -/
def EnumDef.replayed (o n : EnumDef) : EnumDef :=
  { o with values := (valueReplay n.name).members p o.values n.values o.values }

/-- What the changes between two helpers that are let through make of the
    first. -/
def HelperDef.replayed (o n : HelperDef) : HelperDef :=
  { o with
    columns := (helperColumnReplay n.name).replayed p (Column.replayed p .helper n.name)
      o.columns n.columns }

/-- What the changes between two tables that are let through make of the
    first. -/
def TableDef.replayed (o n : TableDef) : TableDef :=
  { o with
    dbName := dbNameAfter p o n o
    columns := (tableColumnReplay n.name).replayed p (Column.replayed p .table n.name)
      o.columns n.columns
    helperReferences := (referenceReplay n.name).members p o.helperReferences n.helperReferences
      o.helperReferences
    compositePrimaryKey := keyAfter p o n o }

/-- What the changes between two schemas that are let through make of the
    first. -/
def Schema.replayed (old new : Schema) : Schema :=
  { old with
    enums := enumReplay.replayed p (fun q => q.1.replayed p q.2) old.enums new.enums
    helpers := helperReplay.replayed p (fun q => q.1.replayed p q.2) old.helpers new.helpers
    tables := tableReplay.replayed p (fun q => q.1.replayed p q.2) old.tables new.tables }

theorem EnumDef.foldlM_replayed {o n : EnumDef} (hn : n.values.Nodup) :
    ((valueChanges o n).filter p).foldlM makeChange o = .ok (o.replayed p n) := by
  have hv : (n.values.map id).Nodup := by rwa [List.map_id]
  have hr : ((valueChanges o n).filter p).foldlM (makeName .enumValueAdded) o.values = _ :=
    (valueReplay n.name).foldlM_members_of_names p rfl hv
  rw [foldlM_makeChange, hr]
  rfl

theorem HelperDef.foldlM_replayed {o n : HelperDef} (ho : o.Distinct) (hn : n.Distinct) :
    ((helperChanges o n).filter p).foldlM makeChange o = .ok (o.replayed p n) := by
  have hr : ((helperChanges o n).filter p).foldlM (makeColumn .helperColumnAdded) o.columns = _ :=
    (helperColumnReplay n.name).foldlM_changes p ho hn fun q _ =>
      Column.foldlM_columnChanges p .helper n.name q.1 q.2 q.1
  rw [foldlM_makeChange, hr]
  rfl

theorem TableDef.foldlM_replayed {o n : TableDef} (ho : o.Distinct) (hn : n.Distinct) :
    ((tableChanges o n).filter p).foldlM makeChange o = .ok (o.replayed p n) := by
  have hrefs : (n.helperReferences.map id).Nodup := by
    rw [List.map_id]
    exact hn.helperReferences
  exact (foldlM_makeChange p).2 ⟨_, _, _,
    (tableColumnReplay n.name).foldlM_members_of_names p rfl hn.columns,
    (referenceReplay n.name).foldlM_members_of_names p rfl hrefs,
    (tableColumnReplay n.name).foldlM_insides_self p ho.columns hn.columns fun q _ =>
      Column.foldlM_columnChanges p .table n.name q.1 q.2 q.1, rfl⟩

/-- **The changes that are let through can be made**, and what they make. -/
theorem Schema.merge_changesTo {old new : Schema} (ho : old.Distinct) (hn : new.Distinct) :
    old.merge ((old.changesTo new).filter p) = .ok (old.replayed p new) := by
  have he : ∀ q ∈ paired EnumDef.name old.enums new.enums,
      ((valueChanges q.1 q.2).filter p).foldlM EnumDef.makeChange q.1 = .ok (q.1.replayed p q.2) :=
    fun q hq => EnumDef.foldlM_replayed p (hn.enums _ ((mem_paired ho.enumNames).1 hq).2.1)
  have hh : ∀ q ∈ paired HelperDef.name old.helpers new.helpers,
      ((helperChanges q.1 q.2).filter p).foldlM HelperDef.makeChange q.1 =
        .ok (q.1.replayed p q.2) := fun q hq => by
    obtain ⟨hqo, hqn, -⟩ := (mem_paired ho.helperNames).1 hq
    exact HelperDef.foldlM_replayed p (ho.helpers _ hqo) (hn.helpers _ hqn)
  have ht : ∀ q ∈ paired TableDef.name old.tables new.tables,
      ((tableChanges q.1 q.2).filter p).foldlM TableDef.makeChange q.1 =
        .ok (q.1.replayed p q.2) := fun q hq => by
    obtain ⟨hqo, hqn, -⟩ := (mem_paired ho.tableNames).1 hq
    exact TableDef.foldlM_replayed p (ho.tables _ hqo) (hn.tables _ hqn)
  exact merge_filter.2 ⟨_, _, _, enumReplay.foldlM_changes p ho.enumNames hn.enumNames he,
    helperReplay.foldlM_changes p ho.helperNames hn.helperNames hh,
    tableReplay.foldlM_changes p ho.tableNames hn.tableNames ht, rfl⟩

end SchemaLoom
