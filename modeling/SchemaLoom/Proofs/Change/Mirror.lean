/-
  Forward and backward comparisons mirror each other.

  What one comparison finds added, the other finds removed, at the same place of
  the same list; what one finds changed, the other finds changed back.

  * `perm_paired_swap`: the pairs of two lists are the same from either side;
  * `mirrors_entityChanges`: the changes of one kind, if those inside an entity
    mirror each other;
  * `Schema.changesTo_mirrors`: two schemas.
-/
import Mathlib.Data.List.Perm.Basic
import Mathlib.Data.Prod.Basic
import SchemaLoom.Proofs.Change.Exact

namespace SchemaLoom

/-! ## The way back -/

/-- The type of the change that leads back. -/
def ChangeType.mirrored : ChangeType → ChangeType
  | enumAdded => enumRemoved
  | enumRemoved => enumAdded
  | enumValueAdded => enumValueRemoved
  | enumValueRemoved => enumValueAdded
  | helperAdded => helperRemoved
  | helperRemoved => helperAdded
  | helperColumnAdded => helperColumnRemoved
  | helperColumnRemoved => helperColumnAdded
  | tableAdded => tableRemoved
  | tableRemoved => tableAdded
  | tableColumnAdded => tableColumnRemoved
  | tableColumnRemoved => tableColumnAdded
  | tableHelperAdded => tableHelperRemoved
  | tableHelperRemoved => tableHelperAdded
  | columnNotNullAdded => columnNotNullRemoved
  | columnNotNullRemoved => columnNotNullAdded
  | type => type

/-- The details of the change that leads back: what something changed from is
    what it changes to. -/
def ChangeDetails.mirrored : ChangeDetails → ChangeDetails
  | compositePrimaryKey old new => compositePrimaryKey new old
  | dbName old new => dbName new old
  | columnChange old new => columnChange new old
  | details => details

/-- What a change does. -/
def Change.content (c : Change) : ChangeType × ChangeTarget × ChangeDetails :=
  (c.type, c.target, c.details)

/-- What the change does that leads back. -/
def Change.mirrored (c : Change) : ChangeType × ChangeTarget × ChangeDetails :=
  (c.type.mirrored, c.target, c.details.mirrored)

/-- The second changes lead back, one for one and in any order. -/
def Mirrors (cs ds : List Change) : Prop := (ds.map Change.content).Perm (cs.map Change.mirrored)

theorem Mirrors.append {cs ds cs' ds' : List Change} (h : Mirrors cs ds) (h' : Mirrors cs' ds') :
    Mirrors (cs ++ cs') (ds ++ ds') := by
  rw [Mirrors, List.map_append, List.map_append]
  exact List.Perm.append h h'

/-- What is found first in one direction is found last in the other. -/
theorem Mirrors.append_swap {cs ds cs' ds' : List Change} (h : Mirrors cs ds)
    (h' : Mirrors cs' ds') : Mirrors (cs ++ cs') (ds' ++ ds) := by
  rw [Mirrors, List.map_append]
  exact List.perm_append_comm.trans (List.map_append ▸ h.append h')

theorem mirrors_map {β : Type} {xs : List β} {change back : β → Change}
    (h : ∀ x, (back x).content = (change x).mirrored) :
    Mirrors (xs.map change) (xs.map back) := by
  rw [Mirrors, List.map_map, List.map_map]
  exact .of_eq (List.map_congr_left fun x _ => h x)

/-! ## Two lists -/

section
variable {α : Type} {name : α → String} {old new : List α}

/-- The pairs are the same from either side. -/
theorem perm_paired_swap (ho : (old.map name).Nodup) (hn : (new.map name).Nodup) :
    (paired name new old).Perm ((paired name old new).map Prod.swap) := by
  refine (List.perm_ext_iff_of_nodup (nodup_paired ho).of_map
    ((nodup_paired hn).of_map.map Prod.swap_injective)).2 fun p => ?_
  rw [mem_paired hn, List.mem_map]
  constructor
  · rintro ⟨h1, h2, h3⟩
    exact ⟨p.swap, (mem_paired ho).2 ⟨h2, h1, h3.symm⟩, p.swap_swap⟩
  · rintro ⟨q, hq, rfl⟩
    obtain ⟨h1, h2, h3⟩ := (mem_paired ho).1 hq
    exact ⟨h2, h1, h3.symm⟩

/-- The changes inside of what both lists have. -/
theorem mirrors_paired {inside : α → α → List Change} (ho : (old.map name).Nodup)
    (hn : (new.map name).Nodup)
    (hi : ∀ o ∈ old, ∀ n ∈ new, name o = name n → Mirrors (inside o n) (inside n o)) :
    Mirrors ((paired name old new).flatMap fun p => inside p.1 p.2)
      ((paired name new old).flatMap fun p => inside p.1 p.2) := by
  have hback : ((paired name new old).flatMap fun p => inside p.1 p.2).Perm
      ((paired name old new).flatMap fun p => inside p.2 p.1) := by
    have h := (perm_paired_swap ho hn).flatMap_right fun p => inside p.1 p.2
    rwa [List.flatMap_map] at h
  refine (hback.map Change.content).trans ?_
  rw [List.map_flatMap, List.map_flatMap]
  refine List.Perm.flatMap_left _ fun p hp => ?_
  obtain ⟨h1, h2, h3⟩ := (mem_paired ho).1 hp
  exact hi _ h1 _ h2 h3

/-- The changes of the entities of one kind, if those inside an entity mirror
    each other. -/
theorem mirrors_entityChanges {kind : EntityKind} {label : String} {added removed : ChangeType}
    {details : α → ChangeDetails} {inside : α → α → List Change} (ho : (old.map name).Nodup)
    (hn : (new.map name).Nodup) (ha : added.mirrored = removed) (hr : removed.mirrored = added)
    (hd : ∀ x, (details x).mirrored = details x)
    (hi : ∀ o ∈ old, ∀ n ∈ new, name o = name n → Mirrors (inside o n) (inside n o)) :
    Mirrors (entityChanges kind label added removed name details inside old new)
      (entityChanges kind label added removed name details inside new old) := by
  rw [entityChanges, entityChanges]
  refine .append (.append_swap (mirrors_map fun x => ?_) (mirrors_map fun x => ?_))
    (mirrors_paired ho hn hi)
  · simp only [Change.content, Change.mirrored, Change.ofType, ha, hd]
  · simp only [Change.content, Change.mirrored, Change.ofType, hr, hd]

end

/-! ## Enums -/

theorem mirrors_valueChanges {old new : EnumDef} (h : old.name = new.name) :
    Mirrors (valueChanges old new) (valueChanges new old) := by
  rw [valueChanges, valueChanges, h]
  exact .append_swap (mirrors_map fun _ => rfl) (mirrors_map fun _ => rfl)

/-! ## Columns -/

theorem typeChanged_comm (old new : Column) : typeChanged new old = typeChanged old new := by
  rw [Bool.eq_iff_iff, ← not_iff_not, Bool.not_eq_true, Bool.not_eq_true, typeChanged_eq_false,
    typeChanged_eq_false, Column.SameType, Column.SameType]
  cases old.kind <;> cases new.kind <;> simp only [eq_comm]

/-- A column changes back in what it changed in. -/
theorem types_columnModifications (label label' : String) (old new : Column) :
    (columnModifications label' new old).map Prod.fst =
      (columnModifications label old new).map fun m => m.1.mirrored := by
  rw [columnModifications_eq, columnModifications_eq]
  simp only [columnDifferences, present, List.flatMap_cons, List.flatMap_nil, List.map_append,
    typeChanged_comm old new, apply_ite (List.map _), List.map_cons, List.map_nil,
    ChangeType.mirrored, bne_comm (a := new.options.primaryKey),
    bne_comm (a := new.options.default), bne_comm (a := new.options.references)]
  cases old.options.notNull <;> cases new.options.notNull <;> rfl

theorem mirrors_columnChanges (kind : EntityKind) (entity : String) {old new : Column}
    (h : old.name = new.name) :
    Mirrors (columnChanges kind entity old new) (columnChanges kind entity new old) := by
  have hp := congrArg (List.map fun t => (t,
      (⟨kind, entity, some new.name⟩ : ChangeTarget), ChangeDetails.columnChange new old))
    (types_columnModifications (entity ++ "." ++ new.name) (entity ++ "." ++ old.name) old new)
  rw [List.map_map, List.map_map] at hp
  rw [Mirrors, columnChanges, columnChanges, List.map_map, List.map_map, h]
  exact .of_eq (h ▸ hp)

section
variable {kind : EntityKind} {entity : String} {added removed : ChangeType} {old new : List Column}

theorem mirrors_pairedColumnChanges (ho : (old.map Column.name).Nodup)
    (hn : (new.map Column.name).Nodup) :
    Mirrors (pairedColumnChanges kind entity old new) (pairedColumnChanges kind entity new old) :=
  mirrors_paired ho hn fun _ _ _ _ h => mirrors_columnChanges kind entity h

theorem mirrors_memberColumnChanges (ha : added.mirrored = removed)
    (hr : removed.mirrored = added) :
    Mirrors (memberColumnChanges kind entity added removed old new)
      (memberColumnChanges kind entity added removed new old) := by
  rw [memberColumnChanges, memberColumnChanges]
  refine .append_swap (mirrors_map fun c => ?_) (mirrors_map fun c => ?_)
  · simp only [Change.content, Change.mirrored, columnAddition_type, columnAddition_target,
      columnAddition_details, ha]
    rfl
  · simp only [Change.content, Change.mirrored, columnAddition_type, columnAddition_target,
      columnAddition_details, ← hr]
    rfl

end

/-! ## Helpers and tables -/

theorem mirrors_helperChanges {old new : HelperDef} (ho : old.Distinct) (hn : new.Distinct)
    (h : old.name = new.name) : Mirrors (helperChanges old new) (helperChanges new old) := by
  rw [helperChanges, helperChanges, h]
  exact (mirrors_memberColumnChanges rfl rfl).append (mirrors_pairedColumnChanges ho hn)

theorem mirrors_helperReferenceChanges {old new : TableDef} (h : old.name = new.name) :
    Mirrors (helperReferenceChanges old new) (helperReferenceChanges new old) := by
  rw [helperReferenceChanges, helperReferenceChanges, h]
  exact .append_swap (mirrors_map fun _ => rfl) (mirrors_map fun _ => rfl)

theorem sameElements_comm (xs ys : List String) : sameElements ys xs = sameElements xs ys :=
  Bool.and_comm _ _

theorem mirrors_compositeKeyChange {old new : TableDef} (h : old.name = new.name) :
    Mirrors (compositeKeyChange old new) (compositeKeyChange new old) := by
  rw [compositeKeyChange, compositeKeyChange, h,
    sameElements_comm (old.compositeKey.getD []) (new.compositeKey.getD [])]
  split <;> exact .refl _

theorem mirrors_dbNameChange {old new : TableDef} (h : old.name = new.name) :
    Mirrors (dbNameChange old new) (dbNameChange new old) := by
  simp only [dbNameChange, h, eq_comm (a := new.databaseName)]
  split <;> exact .refl _

theorem mirrors_tableChanges {old new : TableDef} (ho : (old.columns.map Column.name).Nodup)
    (hn : (new.columns.map Column.name).Nodup) (h : old.name = new.name) :
    Mirrors (tableChanges old new) (tableChanges new old) := by
  rw [tableChanges, tableChanges]
  refine ((((?_ : Mirrors _ _).append (mirrors_helperReferenceChanges h)).append
    (mirrors_compositeKeyChange h)).append (mirrors_dbNameChange h)).append ?_
  · rw [h]
    exact mirrors_memberColumnChanges rfl rfl
  · rw [h]
    exact mirrors_pairedColumnChanges ho hn

/-! ## Schemas -/

/-- **The changes back mirror the changes**: of two schemas in which names tell
    entities and columns apart, one comparison finds removed what the other finds
    added, with the same definition at the same position, and finds changed back
    what the other finds changed. -/
theorem Schema.changesTo_mirrors {a b : Schema} (ha : a.DistinctNames) (hb : b.DistinctNames) :
    ((b.changesTo a).map Change.content).Perm ((a.changesTo b).map Change.mirrored) := by
  change Mirrors (a.changesTo b) (b.changesTo a)
  rw [changesTo, changesTo]
  refine (Mirrors.append ?_ ?_).append ?_
  · exact mirrors_entityChanges ha.enums hb.enums rfl rfl (fun _ => rfl) fun _ _ _ _ h =>
      mirrors_valueChanges h
  · exact mirrors_entityChanges ha.helpers hb.helpers rfl rfl (fun _ => rfl) fun o ho n hn h =>
      mirrors_helperChanges (ha.helperColumns o ho) (hb.helperColumns n hn) h
  · exact mirrors_entityChanges ha.tables hb.tables rfl rfl (fun _ => rfl) fun o ho n hn h =>
      mirrors_tableChanges (ha.tableColumns o ho) (hb.tableColumns n hn) h

/-- An enum that is replaced, with a value listed twice, and a column that is no
    longer required. -/
theorem Schema.changesTo_mirrors_users :
    let id (required : Bool) : Column :=
      { name := "id", typeName := some "integer", options := { notNull := required } }
    let a : Schema :=
      { outputDir := "db"
        enums := [⟨"Role", ["admin", "admin"]⟩, ⟨"Color", ["red"]⟩]
        tables := [{ name := "User", dbName := some "users", columns := [id true] }] }
    let b : Schema :=
      { outputDir := "db"
        enums := [⟨"Color", ["blue", "blue"]⟩]
        tables := [{ name := "User", dbName := some "users", columns := [id false] }] }
    a.DistinctNames ∧ b.DistinctNames ∧
      (a.changesTo b).map Change.mirrored = [
        (.enumAdded, ⟨.enum, "Role", none⟩, .enum ⟨"Role", ["admin", "admin"]⟩),
        (.enumValueRemoved, ⟨.enum, "Color", some "blue"⟩, .enumValue "blue" 0),
        (.enumValueRemoved, ⟨.enum, "Color", some "blue"⟩, .enumValue "blue" 1),
        (.enumValueAdded, ⟨.enum, "Color", some "red"⟩, .enumValue "red" 0),
        (.columnNotNullAdded, ⟨.table, "User", some "id"⟩, .columnChange (id false) (id true))] ∧
      ((b.changesTo a).map Change.content).Perm ((a.changesTo b).map Change.mirrored) := by
  intro id a b
  have ha : a.DistinctNames :=
    ⟨by decide, by decide, by decide, nofun, by decide⟩
  have hb : b.DistinctNames :=
    ⟨by decide, by decide, by decide, nofun, by decide⟩
  exact ⟨ha, hb, by decide, changesTo_mirrors ha hb⟩

end SchemaLoom
