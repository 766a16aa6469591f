/-
  One change made inside an enum, a helper or a table.

  A `Shelf` is where a schema keeps its entities of one kind, with the way their
  changes are told and made.  A change inside an entity is made by a change of
  the entity, which keeps its name, and leaves the other changes
  (`Shelf.StepsInside`):

  * `EnumDef.stepsInside`, `HelperDef.stepsInside`, `TableDef.stepsInside`.
-/
import SchemaLoom.Proofs.Change.Patch
import SchemaLoom.Proofs.Results

namespace SchemaLoom

variable {c : Change}

/-! ## Lists of names -/

/-- The changes between two lists of names with nothing inside: those of the
    values of an enum, and of the helpers of a table. -/
def nameComparison (kind : EntityKind) (entity : String) (added removed : ChangeType)
    (describe : String → String → String) (details : String → Nat → ChangeDetails)
    (hne : added ≠ removed) (hd : ∀ s i j, (details s i).unplaced = (details s j).unplaced) :
    ListComparison String where
  name := id
  target s := ⟨kind, entity, some s⟩
  label t := t.member.getD ""
  added v := .ofType added ⟨kind, entity, some v.1⟩ (describe "added to" v.1) (details v.1 v.2)
  removed v :=
    .ofType removed ⟨kind, entity, some v.1⟩ (describe "removed from" v.1) (details v.1 v.2)
  inside _ _ := []
  addedType := added
  removedType := removed
  insideTypes := []
  label_target := member_getD kind entity
  key_added _ := rfl
  key_removed _ := rfl
  type_inside _ _ := by simp [TypesIn]
  label_inside _ _ := by simp
  apart := ⟨hne, List.not_mem_nil, List.not_mem_nil⟩
  unplaced_removed a i j := by
    rw [Change.unplaced, Change.ofType, hd a i j]
    rfl

section
variable {kind : EntityKind} {entity : String} {added removed : ChangeType}
  {describe : String → String → String} {details : String → Nat → ChangeDetails}
  {hne : added ≠ removed} {hd : ∀ s i j, (details s i).unplaced = (details s j).unplaced}
  {old new : List String}

/-- A change of a list of names, made in the old list, leaves the others. -/
theorem exists_names_step (Does : (List String → Except MergeError (List String)) → Prop)
    (ho : old.Nodup) (hn : new.Nodup)
    (hc : c.IsIn ((nameComparison kind entity added removed describe details hne hd).additions
        old new) ∨
      c.IsIn ((nameComparison kind entity added removed describe details hne hd).removals old new))
    (hlike : ∀ s i, c.details.Like (details s i) → ∃ j, c.details = details s j)
    (hadd : ∀ a i, c.type = added → c.details = details a i →
      Does (insertNew (· == a) i a c.target))
    (hrem : ∀ a i, c.type = removed → c.details = details a i →
      Does (removeFirst (· == a) c.target)) :
    ∃ f bs, Does f ∧ f old = .ok bs ∧
      (nameComparison kind entity added removed describe details hne hd).Step c new old bs := by
  have hid : ∀ xs : List String, xs.map id = xs := List.map_id
  refine Exists.imp (fun f => Exists.imp fun bs hs => ⟨hs.1, hs.2.1, hs.2.2.2⟩)
    ((nameComparison kind entity added removed describe details hne hd).exists_step
      (fun _ => True) Does ((hid old).symm ▸ ho) ((hid new).symm ▸ hn) (fun _ _ => trivial)
      (fun _ _ => trivial) (fun _ _ => rfl) (hc.imp_right .inl) ?_ ?_ ?_)
  · intro a i he
    obtain ⟨j, hj⟩ := hlike a i (Change.details_like he)
    exact ⟨_, hadd a j (Change.type_eq he) hj, fun ha => insertNew_eq_ok j c.target ha⟩
  · intro r hr i he
    obtain ⟨j, hj⟩ := hlike r i (Change.details_like he)
    exact ⟨_, hrem r j (Change.type_eq he) hj,
      removeFirst_eq_ok c.target (List.mem_map_of_mem hr) ((hid old).symm ▸ ho)⟩
  · intro o _ n _ _ hcin
    exact absurd hcin List.not_mem_nil

end

/-! ## Inside an enum, a helper and a table -/

/-- The entities of one kind: where a schema keeps them, and how their changes
    are told and made. -/
structure Shelf (α : Type) where
  kind : EntityKind
  label : String
  added : ChangeType
  removed : ChangeType
  insideTypes : List ChangeType
  name : α → String
  details : α → ChangeDetails
  inside : α → α → List Change
  /-- Nothing is repeated inside the entity. -/
  Distinct : α → Prop
  get : Schema → List α
  put : Schema → List α → Schema
  apart : added ≠ removed ∧ added ∉ insideTypes ∧ removed ∉ insideTypes
  type_inside : ∀ o n, TypesIn insideTypes (inside o n)
  about_inside : ∀ o n, About kind (name n) (inside o n)
  inside_self : ∀ n, Distinct n → inside n n = []
  details_eq : ∀ d a, ChangeDetails.Like d (details a) → d = details a
  apply_added : ∀ (c : Change) a, c.type = added → c.details = details a → ∀ s,
    c.apply s = (appendNew (fun b => name b == name a) a c.target (get s)).map (put s)
  apply_removed : ∀ (c : Change) a, c.type = removed → c.details = details a → ∀ s,
    c.apply s = (removeFirst (fun b => name b == c.target.entity) c.target (get s)).map (put s)

/-- The enums of a schema. -/
def enumShelf : Shelf EnumDef where
  kind := .enum
  label := "Enum"
  added := .enumAdded
  removed := .enumRemoved
  insideTypes := [.enumValueAdded, .enumValueRemoved]
  name := EnumDef.name
  details := .enum
  inside := valueChanges
  Distinct e := e.values.Nodup
  get := Schema.enums
  put s enums := { s with enums }
  apart := by decide
  type_inside := typesIn_valueChanges
  about_inside := about_valueChanges
  inside_self _ _ := valueChanges_eq_nil.2 (.refl _)
  details_eq _ _ h := h
  apply_added c a ht hd s := by simp only [Change.apply, ht, hd]
  apply_removed c a ht hd s := by simp only [Change.apply, ht, hd]

/-- The helpers of a schema. -/
def helperShelf : Shelf HelperDef where
  kind := .helper
  label := "Helper"
  added := .helperAdded
  removed := .helperRemoved
  insideTypes := [.helperColumnAdded, .helperColumnRemoved] ++ columnTypes
  name := HelperDef.name
  details := .helper
  inside := helperChanges
  Distinct := HelperDef.Distinct
  get := Schema.helpers
  put s helpers := { s with helpers }
  apart := by decide
  type_inside := typesIn_helperChanges
  about_inside := about_helperChanges
  inside_self _ h := (helperChanges_eq_nil h).2 (HelperDef.agrees_self h)
  details_eq _ _ h := h
  apply_added c a ht hd s := by simp only [Change.apply, ht, hd]
  apply_removed c a ht hd s := by simp only [Change.apply, ht, hd]

/-- The tables of a schema. -/
def tableShelf : Shelf TableDef where
  kind := .table
  label := "Table"
  added := .tableAdded
  removed := .tableRemoved
  insideTypes := tableTypes
  name := TableDef.name
  details := .table
  inside := tableChanges
  Distinct := TableDef.Distinct
  get := Schema.tables
  put s tables := { s with tables }
  apart := by decide
  type_inside := typesIn_tableChanges
  about_inside := about_tableChanges
  inside_self _ h := (tableChanges_eq_nil h.columns).2 (TableDef.agrees_self h.columns)
  details_eq _ _ h := h
  apply_added c a ht hd s := by simp only [Change.apply, ht, hd]
  apply_removed c a ht hd s := by simp only [Change.apply, ht, hd]

/-- The change `c` is made inside the entity `o` of a schema, and leaves the
    others of those that lead to `n`. -/
def Shelf.StepsInside {α : Type} (S : Shelf α) (c : Change) (o n : α) : Prop :=
  ∃ f b, (∀ s, c.apply s =
      (updateFirst (fun x => S.name x == S.name n) f c.target (S.get s)).map (S.put s)) ∧
    f o = .ok b ∧ S.name b = S.name o ∧ S.Distinct b ∧ Leaves c (S.inside o n) (S.inside b n)

theorem enumValueAdded_ne : ChangeType.enumValueAdded ≠ .enumValueRemoved := by decide

theorem unplaced_enumValue (value : String) (i j : Nat) :
    (ChangeDetails.enumValue value i).unplaced = (ChangeDetails.enumValue value j).unplaced :=
  rfl

/-- The changes of the values of an enum. -/
def valueComparison (entity : String) : ListComparison String :=
  nameComparison .enum entity .enumValueAdded .enumValueRemoved
    (fun phrase v => "Value '" ++ v ++ "' " ++ phrase ++ " enum '" ++ entity ++ "'") .enumValue
    enumValueAdded_ne unplaced_enumValue

theorem EnumDef.stepsInside {o n : EnumDef} (ho : o.values.Nodup) (hn : n.values.Nodup)
    (hc : c.IsIn (valueChanges o n)) : enumShelf.StepsInside c o n := by
  have hv : ∀ e : EnumDef, valueChanges e n =
      (valueComparison n.name).additions e.values n.values ++
      (valueComparison n.name).removals e.values n.values := fun _ => rfl
  have ht : c.target.entity = n.name := (hc.target_about (about_valueChanges o n)).2
  rw [hv, Change.isIn_append] at hc
  obtain ⟨f, bs, hf, hbs, hstep⟩ := exists_names_step (fun f => ∀ s : Schema, c.apply s =
      s.updateEnum c.target fun e => (f e.values).map fun values => { e with values }) ho hn hc
    (fun _ _ hl => hl) (fun a i ht hd s => by simp only [Change.apply, ht, hd])
    (fun a i ht hd s => by simp only [Change.apply, ht, hd])
  refine ⟨fun e => (f e.values).map fun values => { e with values }, { o with values := bs },
    fun s => ?_, map_eq_ok hbs, rfl, ?_, hstep.additions.append hstep.removals⟩
  · rw [hf, Schema.updateEnum, ht]
    rfl
  · have hid : bs.map id = bs := List.map_id bs
    exact hid ▸ hstep.nodup

theorem HelperDef.stepsInside {o n : HelperDef} (ho : o.Distinct) (hn : n.Distinct)
    (hc : c.IsIn (helperChanges o n)) : helperShelf.StepsInside c o n := by
  obtain ⟨hk, ht⟩ := hc.target_about (about_helperChanges o n)
  obtain ⟨f, bs, hf, hbs, hstep⟩ := exists_columns_step (h := by decide) (.inl rfl) (.inl rfl) ho hn
    (Change.isIn_append.1 hc)
  refine ⟨fun h => (f h.columns).map fun columns => { h with columns }, { o with columns := bs },
    fun s => ?_, map_eq_ok hbs, rfl, hstep.nodup,
    (hstep.additions.append hstep.removals).append hstep.insides⟩
  rw [hf, Schema.updateColumns, hk, ht]
  rfl

/-! ### Tables -/

theorem tableHelperAdded_ne : ChangeType.tableHelperAdded ≠ .tableHelperRemoved := by decide

theorem unplaced_helperReference (helper : String) (i j : Nat) :
    (ChangeDetails.helperReference helper i).unplaced =
      (ChangeDetails.helperReference helper j).unplaced :=
  rfl

/-- The changes of the helpers that a table spreads. -/
def referenceComparison (entity : String) : ListComparison String :=
  nameComparison .table entity .tableHelperAdded .tableHelperRemoved
    (fun phrase h => "Helper '" ++ h ++ "' " ++ phrase ++ " table '" ++ entity ++ "'")
    .helperReference tableHelperAdded_ne unplaced_helperReference

/-- The changes of the columns that only one of two tables has. -/
def tableMemberChanges (o n : TableDef) : List Change :=
  memberColumnChanges .table n.name .tableColumnAdded .tableColumnRemoved o.columns n.columns

/-- The changes of the columns that two tables have. -/
def tablePairChanges (o n : TableDef) : List Change :=
  pairedColumnChanges .table n.name o.columns n.columns

section
variable {o n b : TableDef}

/-- What a change of a table leaves, part by part. -/
theorem leaves_tableChanges (hm : Leaves c (tableMemberChanges o n) (tableMemberChanges b n))
    (hr : Leaves c (helperReferenceChanges o n) (helperReferenceChanges b n))
    (hk : Leaves c (compositeKeyChange o n) (compositeKeyChange b n))
    (hd : Leaves c (dbNameChange o n) (dbNameChange b n))
    (hp : Leaves c (tablePairChanges o n) (tablePairChanges b n)) :
    Leaves c (tableChanges o n) (tableChanges b n) :=
  (((hm.append hr).append hk).append hd).append hp

/-- A change of another type leaves a part as it is. -/
theorem leaves_of_eq {cs ds : List Change} {ts us : List ChangeType} (hc : c.type ∈ us)
    (hts : TypesIn ts cs) (h : ∀ u ∈ us, u ∉ ts) (he : ds = cs) : Leaves c cs ds :=
  leaves_of_typesIn hts (h _ hc) (congrArg _ he)

theorem TableDef.compositeKey_getD (t n : TableDef) :
    ({ t with compositePrimaryKey := n.compositeKey.getD [] } : TableDef).compositeKey.getD [] =
      n.compositeKey.getD [] := by
  rw [compositeKey, compositeKey]
  by_cases h : 2 ≤ n.compositePrimaryKey.length
  · simp [h]
  · simp [h]

/-- A table that is given a name in the database has it. -/
theorem TableDef.databaseName_renamed (t : TableDef) (db : String) :
    ({ t with dbName := if db = Text.snakeCase t.name then none else some db } :
      TableDef).databaseName = db := by
  rw [databaseName]
  by_cases h : db = Text.snakeCase t.name
  · rw [if_pos h, h]
    rfl
  · rw [if_neg h]
    rfl

theorem TableDef.stepsInside_columns (ho : o.Distinct) (hn : n.Distinct)
    (hc : c.IsIn (tableMemberChanges o n) ∨ c.IsIn (tablePairChanges o n)) :
    tableShelf.StepsInside c o n := by
  obtain ⟨hk, ht⟩ : c.target.kind = .table ∧ c.target.entity = n.name :=
    hc.elim (·.target_about about_memberColumnChanges) (·.target_about about_pairedColumnChanges)
  have htypes : c.type ∈ [.tableColumnAdded, .tableColumnRemoved] ++ columnTypes := by
    rw [List.mem_append]
    exact hc.imp (·.type_mem typesIn_memberColumnChanges) (·.type_mem typesIn_pairedColumnChanges)
  obtain ⟨f, bs, hf, hbs, hstep⟩ := exists_columns_step (h := by decide) (.inr rfl) (.inr rfl)
    ho.columns hn.columns hc
  refine ⟨fun t => (f t.columns).map fun columns => { t with columns }, { o with columns := bs },
    fun s => ?_, map_eq_ok hbs, rfl, ⟨hstep.nodup, ho.helperReferences⟩,
    leaves_tableChanges (hstep.additions.append hstep.removals)
      (leaves_of_eq htypes (typesIn_helperReferenceChanges o n) (by decide) rfl)
      (leaves_of_eq htypes (atMostOne_compositeKeyChange o n).typesIn (by decide) rfl)
      (leaves_of_eq htypes (atMostOne_dbNameChange o n).typesIn (by decide) rfl) hstep.insides⟩
  rw [hf, Schema.updateColumns, hk, Schema.updateTable, ht]
  rfl

theorem TableDef.stepsInside_references (ho : o.Distinct) (hn : n.Distinct)
    (hc : c.IsIn (helperReferenceChanges o n)) : tableShelf.StepsInside c o n := by
  have hv : ∀ t : TableDef, helperReferenceChanges t n =
      (referenceComparison n.name).additions t.helperReferences n.helperReferences ++
        (referenceComparison n.name).removals t.helperReferences n.helperReferences := fun _ => rfl
  have ht : c.target.entity = n.name := (hc.target_about (about_helperReferenceChanges o n)).2
  have htypes := hc.type_mem (typesIn_helperReferenceChanges o n)
  rw [hv, Change.isIn_append] at hc
  obtain ⟨f, bs, hf, hbs, hstep⟩ := exists_names_step (fun f => ∀ s : Schema, c.apply s =
      s.updateTable c.target fun t => (f t.helperReferences).map fun helperReferences =>
        { t with helperReferences }) ho.helperReferences hn.helperReferences hc
    (fun _ _ hl => hl) (fun a i ht hd s => by simp only [Change.apply, ht, hd])
    (fun a i ht hd s => by simp only [Change.apply, ht, hd])
  refine ⟨fun t => (f t.helperReferences).map fun helperReferences => { t with helperReferences },
    { o with helperReferences := bs }, fun s => ?_, map_eq_ok hbs, rfl, ⟨ho.columns, ?_⟩,
    leaves_tableChanges (leaves_of_eq htypes typesIn_memberColumnChanges (by decide) rfl)
      (hstep.additions.append hstep.removals)
      (leaves_of_eq htypes (atMostOne_compositeKeyChange o n).typesIn (by decide) rfl)
      (leaves_of_eq htypes (atMostOne_dbNameChange o n).typesIn (by decide) rfl)
      (leaves_of_eq htypes typesIn_pairedColumnChanges (by decide) rfl)⟩
  · rw [hf, Schema.updateTable, ht]
    rfl
  · have hid : bs.map id = bs := List.map_id bs
    exact hid ▸ hstep.nodup

theorem TableDef.stepsInside_key (ho : o.Distinct) (hc : c.IsIn (compositeKeyChange o n)) :
    tableShelf.StepsInside c o n := by
  obtain ⟨d, hd, he⟩ := Change.isIn_iff.1 hc
  have hkey : ∀ e ∈ compositeKeyChange o n, e.key = c.key := fun e hm => by
    rw [Change.key_eq he, (atMostOne_compositeKeyChange o n).key_eq d hd,
      (atMostOne_compositeKeyChange o n).key_eq e hm]
  have htypes := hc.type_mem (atMostOne_compositeKeyChange o n).typesIn
  rw [compositeKeyChange] at hd
  by_cases hs : sameElements (o.compositeKey.getD []) (n.compositeKey.getD []) = true
  · rw [if_pos hs] at hd
    cases hd
  rw [if_neg hs, List.mem_singleton] at hd
  subst hd
  have ht : c.type = .compositePrimaryKeyChanged := Change.type_eq he
  have htarget : c.target = ⟨.table, n.name, none⟩ := Change.target_eq he
  have hdetails : c.details =
      .compositePrimaryKey (o.compositeKey.getD []) (n.compositeKey.getD []) :=
    Change.details_like he
  refine ⟨fun t => .ok { t with compositePrimaryKey := n.compositeKey.getD [] }, _, fun s => ?_,
    rfl,
    rfl, ⟨ho.columns, ho.helperReferences⟩,
    leaves_tableChanges (leaves_of_eq htypes typesIn_memberColumnChanges (by decide) rfl)
      (leaves_of_eq htypes (typesIn_helperReferenceChanges o n) (by decide) rfl) ?_
      (leaves_of_eq htypes (atMostOne_dbNameChange o n).typesIn (by decide) rfl)
      (leaves_of_eq htypes typesIn_pairedColumnChanges (by decide) rfl)⟩
  · simp only [Change.apply, ht, hdetails, Schema.updateTable, htarget]
    rfl
  · refine leaves_nil hkey (compositeKeyChange_eq_nil.2 ?_)
    rw [compositeKey_getD]
    exact .refl _

theorem TableDef.stepsInside_dbName (ho : o.Distinct) (hc : c.IsIn (dbNameChange o n)) :
    tableShelf.StepsInside c o n := by
  obtain ⟨d, hd, he⟩ := Change.isIn_iff.1 hc
  have hkey : ∀ e ∈ dbNameChange o n, e.key = c.key := fun e hm => by
    rw [Change.key_eq he, (atMostOne_dbNameChange o n).key_eq d hd,
      (atMostOne_dbNameChange o n).key_eq e hm]
  have htypes := hc.type_mem (atMostOne_dbNameChange o n).typesIn
  rw [dbNameChange] at hd
  by_cases hs : o.databaseName = n.databaseName
  · rw [if_pos hs] at hd
    cases hd
  rw [if_neg hs, List.mem_singleton] at hd
  subst hd
  have ht : c.type = .tableDbNameChanged := Change.type_eq he
  have htarget : c.target = ⟨.table, n.name, none⟩ := Change.target_eq he
  have hdetails : c.details = .dbName o.databaseName n.databaseName := Change.details_like he
  refine ⟨fun t => .ok { t with dbName :=
      if n.databaseName = Text.snakeCase t.name then none else some n.databaseName }, _,
    fun s => ?_, rfl, rfl, ⟨ho.columns, ho.helperReferences⟩,
    leaves_tableChanges (leaves_of_eq htypes typesIn_memberColumnChanges (by decide) rfl)
      (leaves_of_eq htypes (typesIn_helperReferenceChanges o n) (by decide) rfl)
      (leaves_of_eq htypes (atMostOne_compositeKeyChange o n).typesIn (by decide) rfl) ?_
      (leaves_of_eq htypes typesIn_pairedColumnChanges (by decide) rfl)⟩
  · simp only [Change.apply, ht, hdetails, Schema.updateTable, htarget]
    rfl
  · exact leaves_nil hkey (dbNameChange_eq_nil.2 (databaseName_renamed o _))

theorem TableDef.stepsInside (ho : o.Distinct) (hn : n.Distinct)
    (hc : c.IsIn (tableChanges o n)) : tableShelf.StepsInside c o n := by
  rw [tableChanges, Change.isIn_append, Change.isIn_append, Change.isIn_append,
    Change.isIn_append] at hc
  rcases hc with (((hc | hc) | hc) | hc) | hc
  · exact stepsInside_columns ho hn (.inl hc)
  · exact stepsInside_references ho hn hc
  · exact stepsInside_key ho hc
  · exact stepsInside_dbName ho hc
  · exact stepsInside_columns ho hn (.inr hc)

end

end SchemaLoom
