/-
  When two schemas have no changes.

  In the schemas that are compared, names and values are not repeated
  (`Schema.Distinct`).

  * `Schema.changesTo_eq_nil_of_names`: there is no change exactly if the schemas
    agree (`Schema.Agrees`), in whatever order they list their parts; for this,
    only names must not be repeated (`Schema.DistinctNames`).
-/
import SchemaLoom.Proofs.Change.Lists

namespace SchemaLoom

/-! ## Schemas without repetition -/

/-- The columns of a helper have names of their own. -/
def HelperDef.Distinct (h : HelperDef) : Prop := (h.columns.map Column.name).Nodup

/-- The columns of a table have names of their own, and no helper is spread
    twice. -/
structure TableDef.Distinct (t : TableDef) : Prop where
  columns : (t.columns.map Column.name).Nodup
  helperReferences : t.helperReferences.Nodup

/-- The entities of a kind have names of their own, and nothing is repeated
    inside them. -/
structure Schema.Distinct (s : Schema) : Prop where
  enumNames : (s.enums.map EnumDef.name).Nodup
  helperNames : (s.helpers.map HelperDef.name).Nodup
  tableNames : (s.tables.map TableDef.name).Nodup
  enums : ∀ e ∈ s.enums, e.values.Nodup
  helpers : ∀ h ∈ s.helpers, h.Distinct
  tables : ∀ t ∈ s.tables, t.Distinct

/-- The entities of a kind have names of their own, and so have the columns of
    each of them. -/
structure Schema.DistinctNames (s : Schema) : Prop where
  enums : (s.enums.map EnumDef.name).Nodup
  helpers : (s.helpers.map HelperDef.name).Nodup
  tables : (s.tables.map TableDef.name).Nodup
  helperColumns : ∀ h ∈ s.helpers, h.Distinct
  tableColumns : ∀ t ∈ s.tables, (t.columns.map Column.name).Nodup

theorem Schema.Distinct.names {s : Schema} (h : s.Distinct) : s.DistinctNames :=
  ⟨h.enumNames, h.helperNames, h.tableNames, h.helpers, fun t ht => (h.tables t ht).columns⟩

/-! ## Agreement -/

instance (h : HelperDef) : Decidable h.Distinct :=
  inferInstanceAs (Decidable (h.columns.map Column.name).Nodup)

instance (t : TableDef) : Decidable t.Distinct :=
  decidable_of_iff ((t.columns.map Column.name).Nodup ∧ t.helperReferences.Nodup)
    ⟨fun h => ⟨h.1, h.2⟩, fun h => ⟨h.columns, h.helperReferences⟩⟩

instance (s : Schema) : Decidable s.Distinct :=
  decidable_of_iff ((s.enums.map EnumDef.name).Nodup ∧ (s.helpers.map HelperDef.name).Nodup ∧
      (s.tables.map TableDef.name).Nodup ∧ (∀ e ∈ s.enums, e.values.Nodup) ∧
      (∀ h ∈ s.helpers, h.Distinct) ∧ ∀ t ∈ s.tables, t.Distinct)
    ⟨fun ⟨h1, h2, h3, h4, h5, h6⟩ => ⟨h1, h2, h3, h4, h5, h6⟩,
      fun h => ⟨h.enumNames, h.helperNames, h.tableNames, h.enums, h.helpers, h.tables⟩⟩

/-- Two columns have the same type: the same kind if both have one, and
    otherwise what is written. -/
def Column.SameType (a b : Column) : Prop :=
  match a.kind, b.kind with
  | .ok k, .ok l => k = l
  | _, _ =>
    a.typeName = b.typeName ∧ a.options.enumName = b.options.enumName ∧
      a.options.length = b.options.length

/-- Two columns declare the same. -/
structure Column.Agrees (a b : Column) : Prop where
  type : a.SameType b
  primaryKey : a.options.primaryKey = b.options.primaryKey
  notNull : a.options.notNull = b.options.notNull
  default : a.options.default = b.options.default
  references : a.options.references = b.options.references

/-- Two lists have the same names, and what has the same name agrees. -/
structure AgreeBy {α : Type} (name : α → String) (agrees : α → α → Prop) (old new : List α) :
    Prop where
  names : SameMembers (old.map name) (new.map name)
  agree : ∀ o ∈ old, ∀ n ∈ new, name o = name n → agrees o n

/-- Two helpers have the same columns. -/
def HelperDef.Agrees (a b : HelperDef) : Prop :=
  AgreeBy Column.name Column.Agrees a.columns b.columns

/-- Two tables have the same columns, helpers, composite key and name in the
    database. -/
structure TableDef.Agrees (a b : TableDef) : Prop where
  columns : AgreeBy Column.name Column.Agrees a.columns b.columns
  helperReferences : SameMembers a.helperReferences b.helperReferences
  compositeKey : SameMembers (a.compositeKey.getD []) (b.compositeKey.getD [])
  databaseName : a.databaseName = b.databaseName

/-- Two schemas declare the same. -/
structure Schema.Agrees (a b : Schema) : Prop where
  enums : AgreeBy EnumDef.name (fun e f => SameMembers e.values f.values) a.enums b.enums
  helpers : AgreeBy HelperDef.name HelperDef.Agrees a.helpers b.helpers
  tables : AgreeBy TableDef.name TableDef.Agrees a.tables b.tables

/-! ### Agreement with itself -/

theorem Column.agrees_self (c : Column) : c.Agrees c := by
  refine ⟨?_, rfl, rfl, rfl, rfl⟩
  rw [SameType]
  cases c.kind <;> simp

theorem SameMembers.refl (xs : List String) : SameMembers xs xs := fun _ => Iff.rfl

/-- What is in another order agrees. -/
theorem AgreeBy.of_perm {α : Type} {name : α → String} {agrees : α → α → Prop} {xs ys : List α}
    (h : (xs.map name).Nodup) (hp : xs.Perm ys) (ha : ∀ x ∈ xs, agrees x x) :
    AgreeBy name agrees xs ys where
  names _ := (hp.map name).mem_iff
  agree x hx _ hy he := eq_of_name_eq h hx (hp.mem_iff.2 hy) he ▸ ha x hx

theorem AgreeBy.refl {α : Type} {name : α → String} {agrees : α → α → Prop} {xs : List α}
    (h : (xs.map name).Nodup) (ha : ∀ x ∈ xs, agrees x x) : AgreeBy name agrees xs xs :=
  .of_perm h (.refl xs) ha

theorem HelperDef.agrees_self {h : HelperDef} (hd : h.Distinct) : h.Agrees h :=
  .refl hd fun c _ => c.agrees_self

theorem TableDef.agrees_self {t : TableDef} (hd : (t.columns.map Column.name).Nodup) :
    t.Agrees t :=
  ⟨.refl hd fun c _ => c.agrees_self, .refl _, .refl _, rfl⟩

/-! ## No change -/

variable {α : Type} {name : α → String} {old new : List α}

theorem sameMembers_iff_absentFrom (name : α → String) (old new : List α) :
    SameMembers (old.map name) (new.map name) ↔
      absentFrom name old new = [] ∧ absentFrom name new old = [] := by
  rw [absentFrom_eq_nil, absentFrom_eq_nil, ← List.forall_mem_map (P := (· ∈ old.map name)),
    ← List.forall_mem_map (P := (· ∈ new.map name))]
  exact ⟨fun h => ⟨fun x => (h x).2, fun x => (h x).1⟩, fun h x => ⟨h.2 x, h.1 x⟩⟩

/-- Nothing is missing on either side, and nothing differs inside. -/
theorem agreeBy_iff {β : Type} {inside : α → α → List β} {agrees : α → α → Prop}
    (ho : (old.map name).Nodup)
    (hi : ∀ o ∈ old, ∀ n ∈ new, name o = name n → (inside o n = [] ↔ agrees o n)) :
    AgreeBy name agrees old new ↔ absentFrom name old new = [] ∧ absentFrom name new old = [] ∧
      (paired name old new).flatMap (fun p => inside p.1 p.2) = [] := by
  rw [List.flatMap_eq_nil_iff, ← and_assoc, ← sameMembers_iff_absentFrom]
  constructor
  · rintro ⟨hn, ha⟩
    refine ⟨hn, fun p hp => ?_⟩
    obtain ⟨h1, h2, h3⟩ := (mem_paired ho).1 hp
    exact (hi _ h1 _ h2 h3).2 (ha _ h1 _ h2 h3)
  · rintro ⟨hn, ha⟩
    refine ⟨hn, fun o h1 n h2 h3 => ?_⟩
    exact (hi _ h1 _ h2 h3).1 (ha (o, n) ((mem_paired ho).2 ⟨h1, h2, h3⟩))

theorem entityChanges_eq_nil {kind : EntityKind} {label : String} {added removed : ChangeType}
    {details : α → ChangeDetails} {inside : α → α → List Change} {agrees : α → α → Prop}
    (ho : (old.map name).Nodup)
    (hi : ∀ o ∈ old, ∀ n ∈ new, name o = name n → (inside o n = [] ↔ agrees o n)) :
    entityChanges kind label added removed name details inside old new = [] ↔
      AgreeBy name agrees old new := by
  rw [agreeBy_iff ho hi, entityChanges, List.append_eq_nil_iff, List.append_eq_nil_iff,
    List.map_eq_nil_iff, List.map_eq_nil_iff, and_assoc]

theorem valueChanges_eq_nil {old new : EnumDef} :
    valueChanges old new = [] ↔ SameMembers old.values new.values := by
  have h := sameMembers_iff_absentFrom id old.values new.values
  rw [List.map_id, List.map_id] at h
  rw [h, valueChanges, List.append_eq_nil_iff, List.map_eq_nil_iff, List.map_eq_nil_iff]

theorem typeChanged_eq_false {old new : Column} :
    typeChanged old new = false ↔ old.SameType new := by
  rw [typeChanged, Column.SameType]
  cases old.kind <;> cases new.kind <;> simp [and_assoc]

/-- What may differ in a column: the type of the change, whether it is needed,
    and its description. -/
def columnDifferences (label : String) (old new : Column) : List (ChangeType × Bool × String) :=
  let column := "Column '" ++ label ++ "' "
  [(.columnTypeChanged, typeChanged old new,
      column ++ "type changed from " ++ kindText old ++ " to " ++ kindText new),
    (.columnPrimaryKeyChanged, old.options.primaryKey != new.options.primaryKey,
      column ++ if new.options.primaryKey then "became a primary key"
        else "is no longer a primary key"),
    (.columnNotNullAdded, !old.options.notNull && new.options.notNull, column ++ "is now NOT NULL"),
    (.columnNotNullRemoved, old.options.notNull && !new.options.notNull,
      column ++ "is now nullable"),
    (.columnDefaultChanged, old.options.default != new.options.default,
      column ++ "default changed from " ++ defaultShown old ++ " to " ++ defaultShown new),
    (.columnReferenceChanged, old.options.references != new.options.references,
      column ++ "reference changed from " ++ referenceText old ++ " to " ++ referenceText new)]

/-- The differences that are there. -/
def present (ds : List (ChangeType × Bool × String)) : List (ChangeType × String) :=
  ds.flatMap fun d => if d.2.1 then [(d.1, d.2.2)] else []

theorem columnModifications_eq (label : String) (old new : Column) :
    columnModifications label old new = present (columnDifferences label old new) := by
  simp only [columnModifications, columnDifferences, present, List.flatMap_cons, List.flatMap_nil,
    List.append_assoc, List.append_nil, bne_iff_ne]
  congr 2
  cases old.options.notNull <;> cases new.options.notNull <;> simp

theorem columnChanges_eq_nil {kind : EntityKind} {entity : String} {old new : Column} :
    columnChanges kind entity old new = [] ↔ old.Agrees new := by
  rw [columnChanges, List.map_eq_nil_iff, columnModifications_eq, present,
    List.flatMap_eq_nil_iff]
  simp only [columnDifferences, List.forall_mem_cons]
  constructor
  · rintro ⟨ht, hp, ha, hr, hd, hf, -⟩
    refine ⟨typeChanged_eq_false.1 (by simpa using ht), by simpa using hp, ?_, by simpa using hd,
      by simpa using hf⟩
    cases hn : new.options.notNull <;> simp_all
  · rintro ⟨ht, hp, hn, hd, hr⟩
    simp [hp, hn, hd, hr, typeChanged_eq_false.2 ht]

theorem memberColumnChanges_eq_nil {kind : EntityKind} {entity : String}
    {added removed : ChangeType} {old new : List Column} (ho : (old.map Column.name).Nodup) :
    memberColumnChanges kind entity added removed old new = [] ∧
      pairedColumnChanges kind entity old new = [] ↔
        AgreeBy Column.name Column.Agrees old new := by
  have hi : ∀ o n, columnChanges kind entity o n = [] ↔ o.Agrees n := fun _ _ =>
    columnChanges_eq_nil
  rw [agreeBy_iff ho fun o _ n _ _ => hi o n, memberColumnChanges, List.append_eq_nil_iff,
    List.map_eq_nil_iff, List.map_eq_nil_iff,
    and_assoc, pairedColumnChanges]

theorem helperReferenceChanges_eq_nil {old new : TableDef} :
    helperReferenceChanges old new = [] ↔
      SameMembers old.helperReferences new.helperReferences := by
  have h := sameMembers_iff_absentFrom id old.helperReferences new.helperReferences
  rw [List.map_id, List.map_id] at h
  rw [h, helperReferenceChanges, List.append_eq_nil_iff, List.map_eq_nil_iff, List.map_eq_nil_iff]

theorem compositeKeyChange_eq_nil {old new : TableDef} :
    compositeKeyChange old new = [] ↔
      SameMembers (old.compositeKey.getD []) (new.compositeKey.getD []) := by
  rw [compositeKeyChange, ← sameElements_eq_true]
  simp

theorem dbNameChange_eq_nil {old new : TableDef} :
    dbNameChange old new = [] ↔ old.databaseName = new.databaseName := by
  simp [dbNameChange]

theorem helperChanges_eq_nil {old new : HelperDef} (ho : old.Distinct) :
    helperChanges old new = [] ↔ old.Agrees new := by
  rw [helperChanges, List.append_eq_nil_iff, memberColumnChanges_eq_nil ho, HelperDef.Agrees]

theorem tableChanges_eq_nil {old new : TableDef} (ho : (old.columns.map Column.name).Nodup) :
    tableChanges old new = [] ↔ old.Agrees new := by
  simp only [tableChanges, List.append_eq_nil_iff, helperReferenceChanges_eq_nil,
    compositeKeyChange_eq_nil, dbNameChange_eq_nil]
  constructor
  · rintro ⟨⟨⟨⟨hc, hh⟩, hk⟩, hd⟩, hp⟩
    exact ⟨(memberColumnChanges_eq_nil ho).1 ⟨hc, hp⟩, hh, hk, hd⟩
  · rintro ⟨hc, hh, hk, hd⟩
    obtain ⟨hc, hp⟩ := (memberColumnChanges_eq_nil ho).2 hc
    exact ⟨⟨⟨⟨hc, hh⟩, hk⟩, hd⟩, hp⟩

/-- **There is no change exactly if the schemas agree.** -/
theorem Schema.changesTo_eq_nil_of_names {old new : Schema} (ho : old.DistinctNames) :
    old.changesTo new = [] ↔ old.Agrees new := by
  rw [changesTo, List.append_eq_nil_iff, List.append_eq_nil_iff]
  constructor
  · rintro ⟨⟨he, hh⟩, ht⟩
    refine ⟨(entityChanges_eq_nil ho.enums ?_).1 he,
      (entityChanges_eq_nil ho.helpers ?_).1 hh, (entityChanges_eq_nil ho.tables ?_).1 ht⟩
    · exact fun _ _ _ _ _ => valueChanges_eq_nil
    · exact fun h hm _ _ _ => helperChanges_eq_nil (ho.helperColumns h hm)
    · exact fun t hm _ _ _ => tableChanges_eq_nil (ho.tableColumns t hm)
  · rintro ⟨he, hh, ht⟩
    refine ⟨⟨(entityChanges_eq_nil ho.enums ?_).2 he,
      (entityChanges_eq_nil ho.helpers ?_).2 hh⟩, (entityChanges_eq_nil ho.tables ?_).2 ht⟩
    · exact fun _ _ _ _ _ => valueChanges_eq_nil
    · exact fun h hm _ _ _ => helperChanges_eq_nil (ho.helperColumns h hm)
    · exact fun t hm _ _ _ => tableChanges_eq_nil (ho.tableColumns t hm)

theorem Schema.changesTo_eq_nil {old new : Schema} (ho : old.Distinct) :
    old.changesTo new = [] ↔ old.Agrees new :=
  changesTo_eq_nil_of_names ho.names

end SchemaLoom
