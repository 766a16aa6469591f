/-
  The comparison of two schemas is exact.

  * `Schema.nodup_changesTo`: no two changes have the same type and target,
    since the changes of one type are about things of different names;
  * `Schema.changesTo_exact`: the list of changes is empty exactly if the
    schemas agree, and repeats nothing.
-/
import SchemaLoom.Proofs.Change.Agreement

namespace SchemaLoom

variable {α : Type} {name : α → String} {old new : List α}

/-! ## No change twice -/

/-- What tells a change from the others. -/
def Change.key (c : Change) : ChangeType × ChangeTarget := (c.type, c.target)

/-- The changes differ in type or target. -/
def KeysApart (cs : List Change) : Prop := (cs.map Change.key).Nodup

theorem keysApart_append {cs ds : List Change} (hc : KeysApart cs) (hd : KeysApart ds)
    (h : ∀ c ∈ cs, ∀ d ∈ ds, c.key ≠ d.key) : KeysApart (cs ++ ds) := by
  rw [KeysApart, List.map_append, List.nodup_append]
  refine ⟨hc, hd, ?_⟩
  rintro _ hx _ hy
  obtain ⟨c, hc, rfl⟩ := List.mem_map.1 hx
  obtain ⟨d, hd, rfl⟩ := List.mem_map.1 hy
  exact h c hc d hd

/-- One change for each name. -/
theorem keysApart_map {β : Type} {xs : List β} {label : β → String} {change : β → Change}
    {f : ChangeType × ChangeTarget → String} (h : (xs.map label).Nodup)
    (hf : ∀ x, f (change x).key = label x) : KeysApart (xs.map change) := by
  refine List.Nodup.of_map f ?_
  rw [List.map_map, List.map_map]
  convert h using 2
  funext x
  exact hf x

theorem keysApart_flatMap {β : Type} {xs : List β} {label : β → String} {changes : β → List Change}
    {f : ChangeTarget → String} (h : (xs.map label).Nodup) (hi : ∀ x ∈ xs, KeysApart (changes x))
    (hf : ∀ x ∈ xs, ∀ c ∈ changes x, f c.target = label x) : KeysApart (xs.flatMap changes) := by
  induction xs with
  | nil => exact List.nodup_nil
  | cons x xs ih =>
    rw [List.map_cons, List.nodup_cons] at h
    obtain ⟨hx, hxs⟩ := List.forall_mem_cons.1 hi
    obtain ⟨hfx, hfxs⟩ := List.forall_mem_cons.1 hf
    rw [List.flatMap_cons]
    refine keysApart_append hx (ih h.2 hxs hfxs) fun c hc d hd he => h.1 ?_
    obtain ⟨y, hy, hd⟩ := List.mem_flatMap.1 hd
    rw [← hfx c hc, show c.target = d.target from congrArg Prod.snd he, hfxs y hy d hd]
    exact List.mem_map_of_mem hy

/-- The changes have types among the given ones. -/
def TypesIn (types : List ChangeType) (cs : List Change) : Prop := ∀ c ∈ cs, c.type ∈ types

/-- Changes of other types are other changes. -/
theorem keysApart_append_types {cs ds : List Change} {ts us : List ChangeType}
    (hc : KeysApart cs) (hd : KeysApart ds) (hts : TypesIn ts cs) (hus : TypesIn us ds)
    (h : ∀ t ∈ ts, t ∉ us) : KeysApart (cs ++ ds) :=
  keysApart_append hc hd fun c hcm d hdm he => by
    have ht : c.type = d.type := congrArg Prod.fst he
    exact h c.type (hts c hcm) (ht ▸ hus d hdm)

theorem TypesIn.append {cs ds : List Change} {ts us : List ChangeType} (hc : TypesIn ts cs)
    (hd : TypesIn us ds) : TypesIn (ts ++ us) (cs ++ ds) := by
  intro c hm
  rw [List.mem_append]
  exact (List.mem_append.1 hm).imp (hc c) (hd c)

theorem typesIn_map {β : Type} {xs : List β} {change : β → Change} (type : ChangeType)
    (h : ∀ x, (change x).type = type) : TypesIn [type] (xs.map change) := by
  intro c hc
  obtain ⟨x, -, rfl⟩ := List.mem_map.1 hc
  rw [h x, List.mem_singleton]

/-- The changes are about one entity. -/
def About (kind : EntityKind) (entity : String) (cs : List Change) : Prop :=
  ∀ c ∈ cs, c.target.kind = kind ∧ c.target.entity = entity

theorem About.append {kind : EntityKind} {entity : String} {cs ds : List Change}
    (hc : About kind entity cs) (hd : About kind entity ds) : About kind entity (cs ++ ds) :=
  fun c hm => (List.mem_append.1 hm).elim (hc c) (hd c)

theorem about_map {β : Type} {xs : List β} {change : β → Change} {kind : EntityKind}
    {entity : String} (h : ∀ x, (change x).target.kind = kind ∧ (change x).target.entity = entity) :
    About kind entity (xs.map change) := by
  intro c hc
  obtain ⟨x, -, rfl⟩ := List.mem_map.1 hc
  exact h x

/-- The changes of the entities of one kind, if those inside an entity are apart
    and of other types. -/
theorem keysApart_entityChanges {kind : EntityKind} {label : String} {added removed : ChangeType}
    {details : α → ChangeDetails} {inside : α → α → List Change} {types : List ChangeType}
    (ho : (old.map name).Nodup) (hn : (new.map name).Nodup) (hne : added ≠ removed)
    (hk : ∀ o ∈ old, ∀ n ∈ new, KeysApart (inside o n))
    (ha : ∀ o n, About kind (name n) (inside o n)) (ht : ∀ o n, TypesIn types (inside o n))
    (hta : added ∉ types) (htr : removed ∉ types) :
    KeysApart (entityChanges kind label added removed name details inside old new) := by
  have hin : ∀ p ∈ paired name old new, KeysApart (inside p.1 p.2) := by
    intro p hp
    obtain ⟨h1, h2, -⟩ := (mem_paired ho).1 hp
    exact hk _ h1 _ h2
  have htypes : TypesIn types ((paired name old new).flatMap fun p => inside p.1 p.2) := by
    intro c hc
    obtain ⟨p, -, hc⟩ := List.mem_flatMap.1 hc
    exact ht _ _ c hc
  rw [entityChanges]
  refine keysApart_append_types (keysApart_append_types
    (keysApart_map (nodup_absentFrom hn) (f := fun k => k.2.entity) fun _ => rfl)
    (keysApart_map (nodup_absentFrom ho) (f := fun k => k.2.entity) fun _ => rfl)
    (typesIn_map added fun _ => rfl) (typesIn_map removed fun _ => rfl) ?_)
    (keysApart_flatMap (nodup_paired hn) hin (f := ChangeTarget.entity)
      fun p _ c hc => (ha _ _ c hc).2)
    (.append (typesIn_map added fun _ => rfl) (typesIn_map removed fun _ => rfl)) htypes ?_
  · simpa using hne
  · simpa using ⟨hta, htr⟩

/-- The changes of one kind are about entities of that kind. -/
theorem kind_entityChanges {kind : EntityKind} {label : String} {added removed : ChangeType}
    {details : α → ChangeDetails} {inside : α → α → List Change}
    (ha : ∀ o n, About kind (name n) (inside o n)) :
    ∀ c ∈ entityChanges kind label added removed name details inside old new,
      c.target.kind = kind := by
  intro c hc
  simp only [entityChanges, List.mem_append, List.mem_map, List.mem_flatMap] at hc
  rcases hc with (⟨x, -, rfl⟩ | ⟨x, -, rfl⟩) | ⟨p, -, hc⟩
  · rfl
  · rfl
  · exact (ha _ _ c hc).1

/-! ### Values -/

theorem keysApart_valueChanges {old new : EnumDef} (ho : old.values.Nodup)
    (hn : new.values.Nodup) : KeysApart (valueChanges old new) := by
  rw [← List.map_id old.values] at ho
  rw [← List.map_id new.values] at hn
  rw [valueChanges]
  exact keysApart_append_types
    (keysApart_map (nodup_absentFrom hn) (f := fun k => k.2.member.getD "") fun _ => rfl)
    (keysApart_map (nodup_absentFrom ho) (f := fun k => k.2.member.getD "") fun _ => rfl)
    (typesIn_map .enumValueAdded fun _ => rfl) (typesIn_map .enumValueRemoved fun _ => rfl)
    (by decide)

theorem about_valueChanges (old new : EnumDef) : About .enum new.name (valueChanges old new) := by
  rw [valueChanges]
  exact .append (about_map fun _ => ⟨rfl, rfl⟩) (about_map fun _ => ⟨rfl, rfl⟩)

theorem typesIn_valueChanges (old new : EnumDef) :
    TypesIn [.enumValueAdded, .enumValueRemoved] (valueChanges old new) := by
  rw [valueChanges]
  exact .append (typesIn_map .enumValueAdded fun _ => rfl)
    (typesIn_map .enumValueRemoved fun _ => rfl)

/-! ### Columns -/

/-- The types of the changes of a column that both sides have. -/
def columnTypes : List ChangeType :=
  [.columnTypeChanged, .columnPrimaryKeyChanged, .columnNotNullAdded, .columnNotNullRemoved,
    .columnDefaultChanged, .columnReferenceChanged]

theorem map_fst_present (ds : List (ChangeType × Bool × String)) :
    ((present ds).map Prod.fst).Sublist (ds.map Prod.fst) := by
  induction ds with
  | nil => simp [present]
  | cons d ds ih =>
    rw [present, List.flatMap_cons]
    split
    · exact ih.cons_cons d.1
    · exact ih.cons d.1

theorem map_fst_columnModifications (label : String) (old new : Column) :
    ((columnModifications label old new).map Prod.fst).Sublist columnTypes := by
  rw [columnModifications_eq]
  exact map_fst_present _

theorem keysApart_columnChanges {kind : EntityKind} {entity : String} {old new : Column} :
    KeysApart (columnChanges kind entity old new) := by
  have h : columnTypes.Nodup := by decide
  refine List.Nodup.of_map Prod.fst ?_
  rw [columnChanges, List.map_map, List.map_map]
  exact h.sublist (map_fst_columnModifications _ old new)

theorem typesIn_columnChanges {kind : EntityKind} {entity : String} {old new : Column} :
    TypesIn columnTypes (columnChanges kind entity old new) := by
  intro c hc
  obtain ⟨m, hm, rfl⟩ := List.mem_map.1 hc
  exact (map_fst_columnModifications _ old new).subset (List.mem_map_of_mem hm)

theorem columnAddition_type (kind : EntityKind) (entity : String) (type : ChangeType)
    (c : Column × Nat) : (columnAddition kind entity type c).type = type := by
  rw [columnAddition]
  split <;> rfl

theorem columnAddition_target (kind : EntityKind) (entity : String) (type : ChangeType)
    (c : Column × Nat) :
    (columnAddition kind entity type c).target = ⟨kind, entity, some c.1.name⟩ := by
  rw [columnAddition]
  split <;> rfl

theorem columnAddition_details (kind : EntityKind) (entity : String) (type : ChangeType)
    (c : Column × Nat) : (columnAddition kind entity type c).details = .column c.1 c.2 := by
  rw [columnAddition]
  split <;> rfl

section
variable {kind : EntityKind} {entity : String} {added removed : ChangeType} {old new : List Column}

theorem typesIn_memberColumnChanges :
    TypesIn [added, removed] (memberColumnChanges kind entity added removed old new) := by
  rw [memberColumnChanges]
  exact .append (typesIn_map added fun c => columnAddition_type kind entity added c)
    (typesIn_map removed fun _ => rfl)

theorem about_memberColumnChanges :
    About kind entity (memberColumnChanges kind entity added removed old new) := by
  rw [memberColumnChanges]
  refine .append (about_map fun c => ?_) (about_map fun _ => ⟨rfl, rfl⟩)
  rw [columnAddition_target]
  exact ⟨rfl, rfl⟩

theorem keysApart_memberColumnChanges (ho : (old.map Column.name).Nodup)
    (hn : (new.map Column.name).Nodup) (hne : added ≠ removed) :
    KeysApart (memberColumnChanges kind entity added removed old new) := by
  rw [memberColumnChanges]
  refine keysApart_append_types
    (keysApart_map (nodup_absentFrom hn) (f := fun k => k.2.member.getD "") fun c => ?_)
    (keysApart_map (nodup_absentFrom ho) (f := fun k => k.2.member.getD "") fun _ => rfl)
    (typesIn_map added fun c => columnAddition_type kind entity added c)
    (typesIn_map removed fun _ => rfl) (by simpa using hne)
  rw [Change.key, columnAddition_target]
  rfl

theorem typesIn_pairedColumnChanges :
    TypesIn columnTypes (pairedColumnChanges kind entity old new) := by
  intro c hc
  obtain ⟨p, -, hc⟩ := List.mem_flatMap.1 hc
  exact typesIn_columnChanges c hc

theorem about_pairedColumnChanges :
    About kind entity (pairedColumnChanges kind entity old new) := by
  intro c hc
  obtain ⟨p, -, hc⟩ := List.mem_flatMap.1 hc
  obtain ⟨m, -, rfl⟩ := List.mem_map.1 hc
  exact ⟨rfl, rfl⟩

theorem keysApart_pairedColumnChanges (hn : (new.map Column.name).Nodup) :
    KeysApart (pairedColumnChanges kind entity old new) := by
  refine keysApart_flatMap (nodup_paired hn) (f := fun t => t.member.getD "")
    (fun _ _ => keysApart_columnChanges) fun p _ c hc => ?_
  obtain ⟨m, -, rfl⟩ := List.mem_map.1 hc
  rfl

end

/-! ### Helpers and tables -/

theorem keysApart_helperChanges {old new : HelperDef} (ho : old.Distinct) (hn : new.Distinct) :
    KeysApart (helperChanges old new) :=
  keysApart_append_types (keysApart_memberColumnChanges ho hn (by decide))
    (keysApart_pairedColumnChanges hn) typesIn_memberColumnChanges typesIn_pairedColumnChanges
    (by decide)

theorem about_helperChanges (old new : HelperDef) :
    About .helper new.name (helperChanges old new) :=
  about_memberColumnChanges.append about_pairedColumnChanges

theorem typesIn_helperChanges (old new : HelperDef) :
    TypesIn ([.helperColumnAdded, .helperColumnRemoved] ++ columnTypes) (helperChanges old new) :=
  typesIn_memberColumnChanges.append typesIn_pairedColumnChanges

theorem typesIn_helperReferenceChanges (old new : TableDef) :
    TypesIn [.tableHelperAdded, .tableHelperRemoved] (helperReferenceChanges old new) := by
  rw [helperReferenceChanges]
  exact .append (typesIn_map .tableHelperAdded fun _ => rfl)
    (typesIn_map .tableHelperRemoved fun _ => rfl)

theorem keysApart_helperReferenceChanges {old new : TableDef} (ho : old.helperReferences.Nodup)
    (hn : new.helperReferences.Nodup) : KeysApart (helperReferenceChanges old new) := by
  rw [← List.map_id old.helperReferences] at ho
  rw [← List.map_id new.helperReferences] at hn
  rw [helperReferenceChanges]
  exact keysApart_append_types
    (keysApart_map (nodup_absentFrom hn) (f := fun k => k.2.member.getD "") fun _ => rfl)
    (keysApart_map (nodup_absentFrom ho) (f := fun k => k.2.member.getD "") fun _ => rfl)
    (typesIn_map .tableHelperAdded fun _ => rfl) (typesIn_map .tableHelperRemoved fun _ => rfl)
    (by decide)

/-- At most one change, of a type and a target. -/
def AtMostOne (type : ChangeType) (target : ChangeTarget) (cs : List Change) : Prop :=
  cs = [] ∨ ∃ c, cs = [c] ∧ c.type = type ∧ c.target = target

theorem AtMostOne.keysApart {type : ChangeType} {target : ChangeTarget} {cs : List Change}
    (h : AtMostOne type target cs) : KeysApart cs := by
  rcases h with rfl | ⟨c, rfl, -, -⟩
  · exact List.nodup_nil
  · rw [KeysApart, List.map_singleton]
    exact List.nodup_singleton _

theorem AtMostOne.key_eq {type : ChangeType} {target : ChangeTarget} {cs : List Change}
    (h : AtMostOne type target cs) : ∀ c ∈ cs, c.key = (type, target) := by
  rcases h with rfl | ⟨c, rfl, rfl, rfl⟩
  · simp
  · exact fun d hd => congrArg Change.key (List.mem_singleton.1 hd)

theorem AtMostOne.typesIn {type : ChangeType} {target : ChangeTarget} {cs : List Change}
    (h : AtMostOne type target cs) : TypesIn [type] cs := by
  rcases h with rfl | ⟨c, rfl, ht, -⟩
  · simp [TypesIn]
  · simp [TypesIn, ht]

theorem AtMostOne.about {type : ChangeType} {target : ChangeTarget} {cs : List Change}
    (h : AtMostOne type target cs) : About target.kind target.entity cs := by
  rcases h with rfl | ⟨c, rfl, -, ht⟩
  · simp [About]
  · simp [About, ht]

theorem atMostOne_compositeKeyChange (old new : TableDef) :
    AtMostOne .compositePrimaryKeyChanged ⟨.table, new.name, none⟩
      (compositeKeyChange old new) := by
  rw [compositeKeyChange]
  by_cases h : sameElements (old.compositeKey.getD []) (new.compositeKey.getD []) = true
  · exact .inl (if_pos h)
  · exact .inr ⟨_, if_neg h, rfl, rfl⟩

theorem atMostOne_dbNameChange (old new : TableDef) :
    AtMostOne .tableDbNameChanged ⟨.table, new.name, none⟩ (dbNameChange old new) := by
  rw [dbNameChange]
  by_cases h : old.databaseName = new.databaseName
  · exact .inl (if_pos h)
  · exact .inr ⟨_, if_neg h, rfl, rfl⟩

/-- The types of the changes inside a table. -/
def tableTypes : List ChangeType :=
  [.tableColumnAdded, .tableColumnRemoved] ++ [.tableHelperAdded, .tableHelperRemoved] ++
    [.compositePrimaryKeyChanged] ++ [.tableDbNameChanged] ++ columnTypes

theorem typesIn_tableChanges (old new : TableDef) : TypesIn tableTypes (tableChanges old new) :=
  (((typesIn_memberColumnChanges.append (typesIn_helperReferenceChanges old new)).append
    (atMostOne_compositeKeyChange old new).typesIn).append
    (atMostOne_dbNameChange old new).typesIn).append typesIn_pairedColumnChanges

theorem about_helperReferenceChanges (old new : TableDef) :
    About .table new.name (helperReferenceChanges old new) := by
  rw [helperReferenceChanges]
  exact .append (about_map fun _ => ⟨rfl, rfl⟩) (about_map fun _ => ⟨rfl, rfl⟩)

theorem about_tableChanges (old new : TableDef) : About .table new.name (tableChanges old new) :=
  (((about_memberColumnChanges.append (about_helperReferenceChanges old new)).append
    (atMostOne_compositeKeyChange old new).about).append
    (atMostOne_dbNameChange old new).about).append about_pairedColumnChanges

theorem keysApart_tableChanges {old new : TableDef} (ho : old.Distinct) (hn : new.Distinct) :
    KeysApart (tableChanges old new) := by
  have hk := atMostOne_compositeKeyChange old new
  have hd := atMostOne_dbNameChange old new
  have hc : TypesIn [.tableColumnAdded, .tableColumnRemoved] (memberColumnChanges .table new.name
      .tableColumnAdded .tableColumnRemoved old.columns new.columns) := typesIn_memberColumnChanges
  have ht := hc.append (typesIn_helperReferenceChanges old new)
  rw [tableChanges]
  refine keysApart_append_types (keysApart_append_types (keysApart_append_types
    (keysApart_append_types (keysApart_memberColumnChanges ho.columns hn.columns (by decide))
      (keysApart_helperReferenceChanges ho.helperReferences hn.helperReferences)
      typesIn_memberColumnChanges (typesIn_helperReferenceChanges old new) (by decide))
    hk.keysApart ht hk.typesIn (by decide)) hd.keysApart (ht.append hk.typesIn) hd.typesIn
    (by decide)) (keysApart_pairedColumnChanges hn.columns)
    ((ht.append hk.typesIn).append hd.typesIn) typesIn_pairedColumnChanges (by decide)

/-! ### Schemas -/

theorem keysApart_append_kinds {cs ds : List Change} (kinds : List EntityKind) {kind : EntityKind}
    (hc : KeysApart cs) (hd : KeysApart ds) (hcs : ∀ c ∈ cs, c.target.kind ∈ kinds)
    (hds : ∀ d ∈ ds, d.target.kind = kind) (h : kind ∉ kinds) : KeysApart (cs ++ ds) := by
  refine keysApart_append hc hd fun c hcm d hdm he => h ?_
  have ht : c.target = d.target := congrArg Prod.snd he
  rw [← hds d hdm, ← ht]
  exact hcs c hcm

/-- **No two changes have the same type and target.** -/
theorem Schema.nodup_changesTo {old new : Schema} (ho : old.Distinct) (hn : new.Distinct) :
    KeysApart (old.changesTo new) := by
  have hne : KeysApart (entityChanges .enum "Enum" .enumAdded .enumRemoved EnumDef.name .enum
      valueChanges old.enums new.enums) :=
    keysApart_entityChanges ho.enumNames hn.enumNames (by decide)
      (fun o hom n hnm => keysApart_valueChanges (ho.enums o hom) (hn.enums n hnm))
      about_valueChanges typesIn_valueChanges (by decide) (by decide)
  have hnh : KeysApart (entityChanges .helper "Helper" .helperAdded .helperRemoved HelperDef.name
      .helper helperChanges old.helpers new.helpers) :=
    keysApart_entityChanges ho.helperNames hn.helperNames (by decide)
      (fun o hom n hnm => keysApart_helperChanges (ho.helpers o hom) (hn.helpers n hnm))
      about_helperChanges typesIn_helperChanges (by decide) (by decide)
  have hnt : KeysApart (entityChanges .table "Table" .tableAdded .tableRemoved TableDef.name .table
      tableChanges old.tables new.tables) :=
    keysApart_entityChanges ho.tableNames hn.tableNames (by decide)
      (fun o hom n hnm => keysApart_tableChanges (ho.tables o hom) (hn.tables n hnm))
      about_tableChanges typesIn_tableChanges (by decide) (by decide)
  have hkinds : ∀ c ∈ entityChanges .enum "Enum" .enumAdded .enumRemoved EnumDef.name .enum
      valueChanges old.enums new.enums ++ entityChanges .helper "Helper" .helperAdded .helperRemoved
      HelperDef.name .helper helperChanges old.helpers new.helpers,
      c.target.kind ∈ [EntityKind.enum, .helper] := by
    intro c hc
    rcases List.mem_append.1 hc with hc | hc
    · simp [kind_entityChanges about_valueChanges c hc]
    · simp [kind_entityChanges about_helperChanges c hc]
  refine keysApart_append_kinds [.enum, .helper] (keysApart_append_kinds [.enum] hne hnh
    (fun c hc => ?_) (kind_entityChanges about_helperChanges) (by decide)) hnt hkinds
    (kind_entityChanges about_tableChanges) (by decide)
  exact List.mem_singleton.2 (kind_entityChanges about_valueChanges c hc)

/-- **The comparison is exact**: no change exactly if the schemas agree, and no
    two changes of the same type and target. -/
theorem Schema.changesTo_exact {old new : Schema} (ho : old.Distinct) (hn : new.Distinct) :
    (old.changesTo new = [] ↔ old.Agrees new) ∧
      (old.changesTo new).Pairwise fun c d => ¬ (c.type = d.type ∧ c.target = d.target) := by
  refine ⟨changesTo_eq_nil ho, ?_⟩
  have h := nodup_changesTo ho hn
  rw [KeysApart, List.Nodup, List.pairwise_map] at h
  exact h.imp fun hne he => hne (Prod.ext he.1 he.2)

/-- Two enums with a value that only the second lists. -/
theorem Schema.changesTo_exact_roles :
    let old : Schema := { outputDir := "db", enums := [⟨"Role", ["admin"]⟩, ⟨"Color", ["red"]⟩] }
    let new : Schema :=
      { outputDir := "db", enums := [⟨"Color", ["red"]⟩, ⟨"Role", ["admin", "user"]⟩] }
    old.Distinct ∧ new.Distinct ∧ old.changesTo new ≠ [] ∧
      (old.changesTo new = [] ↔ old.Agrees new) ∧
      (old.changesTo new).Pairwise fun c d => ¬ (c.type = d.type ∧ c.target = d.target) := by
  intro old new
  have ho : old.Distinct :=
    ⟨by decide, by decide, by decide, by decide, nofun, nofun⟩
  have hn : new.Distinct :=
    ⟨by decide, by decide, by decide, by decide, nofun, nofun⟩
  exact ⟨ho, hn, by decide, changesTo_exact ho hn⟩

end SchemaLoom
