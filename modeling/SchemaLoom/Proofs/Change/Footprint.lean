/-
  What changes do to the entities that they do not touch.

  A change that is proper (`Change.Proper`) is made in one entity: the others
  stay as they are, and the entity itself is there afterwards unless the change
  removes it.

  * `Schema.proper_changesTo`: the changes that a comparison tells are proper;
  * `Change.made_of_apply`: the ways in which a change is made;
  * `Change.touches`: one change;
  * `Footprint.Follows.step`, `Footprint.follows_of_merge`: the footprint of
    changes tells what becomes of every entity.
-/
import SchemaLoom.Change.Compare
import SchemaLoom.Change.Footprint
import SchemaLoom.Proofs.Change.Runs
import SchemaLoom.Validation

namespace SchemaLoom

/-! ## Entities of all kinds -/

/-- An entity of some kind. -/
inductive Entity where
  | enum (definition : EnumDef)
  | helper (definition : HelperDef)
  | table (definition : TableDef)
  deriving DecidableEq

/-- The kind and name of an entity. -/
def Entity.ref : Entity → EntityRef
  | enum e => ⟨.enum, e.name⟩
  | helper h => ⟨.helper, h.name⟩
  | table t => ⟨.table, t.name⟩

@[simp] theorem Entity.ref_enum (e : EnumDef) : (enum e).ref = ⟨.enum, e.name⟩ := rfl

@[simp] theorem Entity.ref_helper (h : HelperDef) : (helper h).ref = ⟨.helper, h.name⟩ := rfl

@[simp] theorem Entity.ref_table (t : TableDef) : (table t).ref = ⟨.table, t.name⟩ := rfl

/-- The entities of a schema. -/
def Schema.entities (s : Schema) : List Entity :=
  s.enums.map .enum ++ s.helpers.map .helper ++ s.tables.map .table

/-- How many entities of a schema have a kind and name. -/
def Schema.countRef (s : Schema) (r : EntityRef) : Nat := (s.entities.map Entity.ref).count r

/-! ## Changes that are proper -/

/-- The kind of entities that a change with some details is about, if there is
    only one. -/
def ChangeDetails.kind? : ChangeDetails → Option EntityKind
  | .enum _ | .enumValue _ _ => some .enum
  | .helper _ => some .helper
  | .table _ | .helperReference _ _ | .compositePrimaryKey _ _ | .dbName _ _ => some .table
  | .column _ _ | .columnChange _ _ => none

/-- The name of the entity that details define. -/
def ChangeDetails.defined? : ChangeDetails → Option String
  | .enum e => some e.name
  | .helper h => some h.name
  | .table t => some t.name
  | _ => none

/-- The target of a change is of the kind that its details are about, and an
    entity that is added is the one that the target names. -/
structure Change.Proper (c : Change) : Prop where
  kind : ∀ kind, c.details.kind? = some kind → c.target.kind = kind
  name : c.type.removesEntity = false → ∀ name, c.details.defined? = some name →
    name = c.target.entity

/-! ## Changes that a comparison tells -/

/-- A change of details that define no entity is proper if its target is of the
    kind that they are about. -/
theorem Change.Proper.ofType {type : ChangeType} {target : ChangeTarget} {description : String}
    {details : ChangeDetails} (hd : details.defined? = none)
    (hk : ∀ kind, details.kind? = some kind → target.kind = kind) :
    (Change.ofType type target description details).Proper :=
  ⟨hk, fun _ _ hn => nomatch hd.symm.trans hn⟩

theorem proper_entityChanges {α : Type} {kind : EntityKind} {label : String}
    {added removed : ChangeType} {name : α → String} {details : α → ChangeDetails}
    {inside : α → α → List Change} {old new : List α}
    (hk : ∀ a, (details a).kind? = some kind) (hd : ∀ a, (details a).defined? = some (name a))
    (hi : ∀ o n, ∀ c ∈ inside o n, c.Proper) :
    ∀ c ∈ entityChanges kind label added removed name details inside old new, c.Proper := by
  have hmade : ∀ (type : ChangeType) (description : String) a,
      (Change.ofType type ⟨kind, name a, none⟩ description (details a)).Proper :=
    fun type description a => ⟨fun k h => Option.some.inj ((hk a).symm.trans h),
      fun _ n h => (Option.some.inj ((hd a).symm.trans h)).symm⟩
  simp only [entityChanges, List.forall_mem_append, List.forall_mem_map, List.forall_mem_flatMap]
  exact ⟨⟨fun x _ => hmade _ _ _, fun x _ => hmade _ _ _⟩, fun p _ => hi _ _⟩

theorem proper_memberColumnChanges (kind : EntityKind) (entity : String)
    (added removed : ChangeType) (old new : List Column) :
    ∀ c ∈ memberColumnChanges kind entity added removed old new, c.Proper := by
  simp only [memberColumnChanges, List.forall_mem_append, List.forall_mem_map]
  refine ⟨fun x _ => ?_, fun x _ => .ofType rfl nofun⟩
  rw [columnAddition]
  split
  · exact ⟨nofun, nofun⟩
  · exact .ofType rfl nofun

theorem proper_pairedColumnChanges (kind : EntityKind) (entity : String) (old new : List Column) :
    ∀ c ∈ pairedColumnChanges kind entity old new, c.Proper := by
  simp only [pairedColumnChanges, columnChanges, List.forall_mem_flatMap, List.forall_mem_map]
  exact fun _ _ _ _ => .ofType rfl nofun

theorem proper_valueChanges (old new : EnumDef) : ∀ c ∈ valueChanges old new, c.Proper := by
  simp only [valueChanges, List.forall_mem_append, List.forall_mem_map]
  exact ⟨fun _ _ => .ofType rfl fun _ h => Option.some.inj h,
    fun _ _ => .ofType rfl fun _ h => Option.some.inj h⟩

theorem proper_helperChanges (old new : HelperDef) : ∀ c ∈ helperChanges old new, c.Proper :=
  List.forall_mem_append.2 ⟨proper_memberColumnChanges _ _ _ _ _ _,
    proper_pairedColumnChanges _ _ _ _⟩

theorem proper_tableChanges (old new : TableDef) : ∀ c ∈ tableChanges old new, c.Proper := by
  have hreferences : ∀ c ∈ helperReferenceChanges old new, c.Proper := by
    simp only [helperReferenceChanges, List.forall_mem_append, List.forall_mem_map]
    exact ⟨fun _ _ => .ofType rfl fun _ h => Option.some.inj h,
      fun _ _ => .ofType rfl fun _ h => Option.some.inj h⟩
  have hone : ∀ (same : Prop) [Decidable same] (c : Change), c.Proper →
      ∀ d ∈ if same then [] else [c], d.Proper := by
    intro same _ c hc
    split
    · exact List.forall_mem_nil _
    · exact List.forall_mem_singleton.2 hc
  have hkey : ∀ c ∈ compositeKeyChange old new, c.Proper :=
    hone _ _ (.ofType rfl fun _ h => Option.some.inj h)
  have hname : ∀ c ∈ dbNameChange old new, c.Proper :=
    hone _ _ (.ofType rfl fun _ h => Option.some.inj h)
  simp only [tableChanges, List.forall_mem_append]
  exact ⟨⟨⟨⟨proper_memberColumnChanges _ _ _ _ _ _, hreferences⟩, hkey⟩, hname⟩,
    proper_pairedColumnChanges _ _ _ _⟩

/-- **Every change that a comparison tells is proper.** -/
theorem Schema.proper_changesTo (old new : Schema) : ∀ c ∈ old.changesTo new, c.Proper := by
  rw [changesTo]
  exact List.forall_mem_append.2 ⟨List.forall_mem_append.2
    ⟨proper_entityChanges (fun _ => rfl) (fun _ => rfl) proper_valueChanges,
      proper_entityChanges (fun _ => rfl) (fun _ => rfl) proper_helperChanges⟩,
    proper_entityChanges (fun _ => rfl) (fun _ => rfl) proper_tableChanges⟩

/-! ## Lists -/

/-- The list `bs` differs from `as` only in the elements of a name.  If there was
    at most one, there is one afterwards or none. -/
structure Touches {α : Type} (name : α → String) (s : String) (there : Bool) (as bs : List α) :
    Prop where
  others : bs.filter (fun a => name a ≠ s) = as.filter fun a => name a ≠ s
  count : (as.map name).count s ≤ 1 → (bs.map name).count s = if there then 1 else 0

section
variable {α : Type} {name : α → String} {s : String} {as bs : List α} {target : ChangeTarget}

theorem touches_appendNew {a : α} (ha : name a = s)
    (h : appendNew (fun b => name b == name a) a target as = .ok bs) :
    Touches name s true as bs := by
  subst ha
  rw [appendNew] at h
  split at h
  · cases h
  next hnew =>
    obtain rfl := Except.ok.inj h
    have hcount : (as.map name).count (name a) = 0 :=
      List.count_eq_zero.2 fun hm => hnew (any_name_eq.2 hm)
    refine ⟨by simp, fun _ => ?_⟩
    simp [hcount]

theorem filter_eraseP_name (as : List α) (s : String) :
    (as.eraseP fun a => name a == s).filter (fun a => name a ≠ s) =
      as.filter fun a => name a ≠ s := by
  induction as with
  | nil => rfl
  | cons a as ih =>
    by_cases ha : name a = s
    · simp [ha]
    · simpa [ha] using ih

theorem touches_removeFirst (h : removeFirst (fun a => name a == s) target as = .ok bs) :
    Touches name s false as bs := by
  rw [removeFirst] at h
  split at h
  · obtain rfl := Except.ok.inj h
    refine ⟨filter_eraseP_name as s, fun hle => ?_⟩
    rw [map_name_eraseP, List.count_erase_self]
    exact Nat.sub_eq_zero_of_le hle
  · cases h

theorem touches_updateFirst {f : α → Except MergeError α}
    (h : updateFirst (fun a => name a == s) f target as = .ok bs)
    (hf : ∀ a b, f a = .ok b → name b = name a) : Touches name s true as bs := by
  induction as generalizing bs with
  | nil => cases h
  | cons a as ih =>
    rw [updateFirst] at h
    by_cases ha : name a = s
    · rw [if_pos (beq_iff_eq.2 ha)] at h
      obtain ⟨b, hb, rfl⟩ := map_eq_ok_iff.1 h
      have hname := (hf a b hb).trans ha
      refine ⟨by simp [ha, hname], fun hle => ?_⟩
      rw [List.map_cons, ha, List.count_cons_self] at hle
      rw [List.map_cons, hname, List.count_cons_self]
      exact congrArg _ (Nat.le_zero.1 (Nat.le_of_succ_le_succ hle))
    · rw [if_neg (by simpa using ha)] at h
      obtain ⟨bs, hbs, rfl⟩ := map_eq_ok_iff.1 h
      obtain ⟨hothers, hcount⟩ := ih hbs
      refine ⟨by simpa [ha] using hothers, fun hle => ?_⟩
      rw [List.map_cons, List.count_cons_of_ne ha] at hle ⊢
      exact hcount hle

/-- Some element is changed. -/
theorem exists_of_updateFirst {p : α → Bool} {f : α → Except MergeError α}
    (h : updateFirst p f target as = .ok bs) : ∃ a b, f a = .ok b := by
  induction as generalizing bs with
  | nil => cases h
  | cons a as ih =>
    rw [updateFirst] at h
    split at h
    · obtain ⟨b, hb, -⟩ := map_eq_ok_iff.1 h
      exact ⟨a, b, hb⟩
    · obtain ⟨bs, hbs, -⟩ := map_eq_ok_iff.1 h
      exact ih hbs

end

/-! ## Schemas -/

/-- The schema `s'` differs from `s` only in the entities of a kind and name.  If
    there was at most one, there is one afterwards or none. -/
structure Schema.Touches (r : EntityRef) (there : Bool) (s s' : Schema) : Prop where
  others : s'.entities.filter (fun e => e.ref ≠ r) = s.entities.filter fun e => e.ref ≠ r
  count : s.countRef r ≤ 1 → s'.countRef r = if there then 1 else 0

namespace Schema

variable {s : Schema} {name : String} {there : Bool}

/-- The entities of a kind and name are counted among those of the kind. -/
theorem countRef_eq (s : Schema) (kind : EntityKind) (name : String) :
    s.countRef ⟨kind, name⟩ = (s.namesOf kind).count name := by
  have hsame : ∀ names : List String, (names.map (EntityRef.mk kind)).count ⟨kind, name⟩ =
      names.count name := fun names => by
    rw [List.count_eq_countP, List.count_eq_countP, List.countP_map]
    refine List.countP_congr fun n _ => ?_
    simp
  have hother : ∀ other, other ≠ kind → ∀ names : List String,
      (names.map (EntityRef.mk other)).count ⟨kind, name⟩ = 0 := by
    refine fun other ho names => List.count_eq_zero.2 fun hm => ?_
    obtain ⟨n, -, hn⟩ := List.mem_map.1 hm
    exact ho (EntityRef.mk.inj hn).1
  have hrefs : s.entities.map Entity.ref = (s.namesOf .enum).map (EntityRef.mk .enum) ++
      (s.namesOf .helper).map (EntityRef.mk .helper) ++
        (s.namesOf .table).map (EntityRef.mk .table) := by
    simp only [entities, namesOf, List.map_append, List.map_map]
    rfl
  rw [countRef, hrefs, List.count_append, List.count_append]
  cases kind with
  | enum => rw [hsame, hother .helper (by decide), hother .table (by decide)]; rfl
  | helper => rw [hsame, hother .enum (by decide), hother .table (by decide), Nat.zero_add]; rfl
  | table => rw [hsame, hother .enum (by decide), hother .helper (by decide), Nat.zero_add]

/-- The entities apart from one of a kind and name. -/
theorem filter_entities_ne (s : Schema) (r : EntityRef) :
    s.entities.filter (fun e => e.ref ≠ r) =
      (s.enums.filter fun e => (Entity.enum e).ref ≠ r).map .enum ++
        (s.helpers.filter fun h => (Entity.helper h).ref ≠ r).map .helper ++
          (s.tables.filter fun t => (Entity.table t).ref ≠ r).map .table := by
  simp only [entities, List.filter_append, List.filter_map]
  rfl

theorem touches_enums {enums : List EnumDef}
    (h : SchemaLoom.Touches EnumDef.name name there s.enums enums) :
    s.Touches ⟨.enum, name⟩ there { s with enums } := by
  refine ⟨?_, fun hle => ?_⟩
  · have hothers := h.others
    simp only [filter_entities_ne, Entity.ref_enum, Entity.ref_helper, Entity.ref_table, ne_eq,
      EntityRef.mk.injEq, true_and] at hothers ⊢
    rw [hothers]
  · rw [countRef_eq] at hle ⊢
    exact h.count hle

theorem touches_helpers {helpers : List HelperDef}
    (h : SchemaLoom.Touches HelperDef.name name there s.helpers helpers) :
    s.Touches ⟨.helper, name⟩ there { s with helpers } := by
  refine ⟨?_, fun hle => ?_⟩
  · have hothers := h.others
    simp only [filter_entities_ne, Entity.ref_enum, Entity.ref_helper, Entity.ref_table, ne_eq,
      EntityRef.mk.injEq, true_and] at hothers ⊢
    rw [hothers]
  · rw [countRef_eq] at hle ⊢
    exact h.count hle

theorem touches_tables {tables : List TableDef}
    (h : SchemaLoom.Touches TableDef.name name there s.tables tables) :
    s.Touches ⟨.table, name⟩ there { s with tables } := by
  refine ⟨?_, fun hle => ?_⟩
  · have hothers := h.others
    simp only [filter_entities_ne, Entity.ref_enum, Entity.ref_helper, Entity.ref_table, ne_eq,
      EntityRef.mk.injEq, true_and] at hothers ⊢
    rw [hothers]
  · rw [countRef_eq] at hle ⊢
    exact h.count hle

variable {s' : Schema} {target : ChangeTarget}

theorem touches_updateEnum {f : EnumDef → Except MergeError EnumDef}
    (h : s.updateEnum target f = .ok s') (hf : ∀ a b, f a = .ok b → b.name = a.name) :
    s.Touches ⟨.enum, target.entity⟩ true s' := by
  obtain ⟨enums, he, rfl⟩ := map_eq_ok_iff.1 h
  exact touches_enums (touches_updateFirst he hf)

theorem touches_updateTable {f : TableDef → Except MergeError TableDef}
    (h : s.updateTable target f = .ok s') (hf : ∀ a b, f a = .ok b → b.name = a.name) :
    s.Touches ⟨.table, target.entity⟩ true s' := by
  obtain ⟨tables, he, rfl⟩ := map_eq_ok_iff.1 h
  exact touches_tables (touches_updateFirst he hf)

theorem touches_updateColumns {f : List Column → Except MergeError (List Column)}
    (h : s.updateColumns target f = .ok s') :
    s.Touches ⟨target.kind, target.entity⟩ true s' := by
  rw [updateColumns] at h
  split at h
  next => cases h
  next hk =>
    obtain ⟨helpers, he, rfl⟩ := map_eq_ok_iff.1 h
    rw [hk]
    exact touches_helpers (touches_updateFirst he fun _ _ hab => eq_of_map_eq_ok hab fun _ => rfl)
  next hk =>
    rw [hk]
    exact touches_updateTable h fun _ _ hab => eq_of_map_eq_ok hab fun _ => rfl

theorem exists_of_updateColumns {f : List Column → Except MergeError (List Column)}
    (h : s.updateColumns target f = .ok s') : ∃ columns columns', f columns = .ok columns' := by
  rw [updateColumns] at h
  split at h
  · cases h
  · obtain ⟨_, he, -⟩ := map_eq_ok_iff.1 h
    obtain ⟨a, b, hab⟩ := exists_of_updateFirst he
    obtain ⟨columns, hc, -⟩ := map_eq_ok_iff.1 hab
    exact ⟨a.columns, columns, hc⟩
  · obtain ⟨_, he, -⟩ := map_eq_ok_iff.1 h
    obtain ⟨a, b, hab⟩ := exists_of_updateFirst he
    obtain ⟨columns, hc, -⟩ := map_eq_ok_iff.1 hab
    exact ⟨a.columns, columns, hc⟩

end Schema

/-! ## What a change does -/

/-- What a change that can be made does: it adds an entity, removes one, or
    changes the inside of one. -/
inductive Change.Made (c : Change) (s : Schema) : Schema → Prop
  | enumAdded {e enums} : c.type = .enumAdded → c.details = .enum e →
      appendNew (fun a => a.name == e.name) e c.target s.enums = .ok enums →
      Made c s { s with enums }
  | enumRemoved {e enums} : c.type = .enumRemoved → c.details = .enum e →
      removeFirst (fun a => a.name == c.target.entity) c.target s.enums = .ok enums →
      Made c s { s with enums }
  | helperAdded {e helpers} : c.type = .helperAdded → c.details = .helper e →
      appendNew (fun a => a.name == e.name) e c.target s.helpers = .ok helpers →
      Made c s { s with helpers }
  | helperRemoved {e helpers} : c.type = .helperRemoved → c.details = .helper e →
      removeFirst (fun a => a.name == c.target.entity) c.target s.helpers = .ok helpers →
      Made c s { s with helpers }
  | tableAdded {e tables} : c.type = .tableAdded → c.details = .table e →
      appendNew (fun a => a.name == e.name) e c.target s.tables = .ok tables →
      Made c s { s with tables }
  | tableRemoved {e tables} : c.type = .tableRemoved → c.details = .table e →
      removeFirst (fun a => a.name == c.target.entity) c.target s.tables = .ok tables →
      Made c s { s with tables }
  | enumChanged {f s'} : c.type.removesEntity = false → c.details.kind? = some .enum →
      s.updateEnum c.target f = .ok s' → (∀ a b, f a = .ok b → b.name = a.name) → Made c s s'
  | tableChanged {f s'} : c.type.removesEntity = false → c.details.kind? = some .table →
      s.updateTable c.target f = .ok s' → (∀ a b, f a = .ok b → b.name = a.name) → Made c s s'
  | columnsChanged {f s'} : c.type.removesEntity = false → s.updateColumns c.target f = .ok s' →
      Made c s s'

/-- What sets a part of a column removes no entity. -/
theorem Column.removesEntity_of_patch {type : ChangeType} {target : ChangeTarget}
    {new a b : Column} (h : patch type target new a = .ok b) : type.removesEntity = false := by
  cases type <;> cases h <;> rfl

/-- A change that can be made is made in one of these ways. -/
theorem Change.made_of_apply {c : Change} {s s' : Schema} (h : c.apply s = .ok s') :
    c.Made s s' := by
  simp only [apply] at h
  split at h
  next e hd =>
    split at h
    next ht =>
      obtain ⟨enums, he, rfl⟩ := map_eq_ok_iff.1 h
      exact .enumAdded ht hd he
    next ht =>
      obtain ⟨enums, he, rfl⟩ := map_eq_ok_iff.1 h
      exact .enumRemoved ht hd he
    next => cases h
  next value i hd =>
    have hk : c.details.kind? = some .enum := congrArg _ hd
    split at h
    next ht =>
      exact .enumChanged (congrArg _ ht) hk h fun _ _ hab => eq_of_map_eq_ok hab fun _ => rfl
    next ht =>
      exact .enumChanged (congrArg _ ht) hk h fun _ _ hab => eq_of_map_eq_ok hab fun _ => rfl
    next => cases h
  next e hd =>
    split at h
    next ht =>
      obtain ⟨helpers, he, rfl⟩ := map_eq_ok_iff.1 h
      exact .helperAdded ht hd he
    next ht =>
      obtain ⟨helpers, he, rfl⟩ := map_eq_ok_iff.1 h
      exact .helperRemoved ht hd he
    next => cases h
  next e hd =>
    split at h
    next ht =>
      obtain ⟨tables, he, rfl⟩ := map_eq_ok_iff.1 h
      exact .tableAdded ht hd he
    next ht =>
      obtain ⟨tables, he, rfl⟩ := map_eq_ok_iff.1 h
      exact .tableRemoved ht hd he
    next => cases h
  next definition i hd =>
    split at h
    next ht => exact .columnsChanged (congrArg _ ht) h
    next ht => exact .columnsChanged (congrArg _ ht) h
    next ht => exact .columnsChanged (congrArg _ ht) h
    next ht => exact .columnsChanged (congrArg _ ht) h
    next => cases h
  next used i hd =>
    have hk : c.details.kind? = some .table := congrArg _ hd
    split at h
    next ht =>
      exact .tableChanged (congrArg _ ht) hk h fun _ _ hab => eq_of_map_eq_ok hab fun _ => rfl
    next ht =>
      exact .tableChanged (congrArg _ ht) hk h fun _ _ hab => eq_of_map_eq_ok hab fun _ => rfl
    next => cases h
  next old new hd =>
    have hk : c.details.kind? = some .table := congrArg _ hd
    split at h
    next ht =>
      refine .tableChanged (congrArg _ ht) hk h fun _ _ hab => ?_
      cases hab
      rfl
    next => cases h
  next old new hd =>
    have hk : c.details.kind? = some .table := congrArg _ hd
    split at h
    next ht =>
      refine .tableChanged (congrArg _ ht) hk h fun _ _ hab => ?_
      cases hab
      rfl
    next => cases h
  next old new hd =>
    obtain ⟨_, _, hupdate⟩ := Schema.exists_of_updateColumns h
    obtain ⟨_, _, hpatch⟩ := exists_of_updateFirst hupdate
    exact .columnsChanged (Column.removesEntity_of_patch hpatch) h

/-- **A proper change is made in one entity.** -/
theorem Change.touches {c : Change} {s s' : Schema} (hc : c.Proper) (h : c.apply s = .ok s') :
    s.Touches c.entity (!c.type.removesEntity) s' := by
  obtain ⟨hkind, hname⟩ := hc
  rw [entity]
  cases made_of_apply h with
  | enumAdded ht hd he =>
    rw [hkind .enum (congrArg _ hd), ht]
    exact Schema.touches_enums (touches_appendNew (hname (congrArg _ ht) _ (congrArg _ hd)) he)
  | enumRemoved ht hd he =>
    rw [hkind .enum (congrArg _ hd), ht]
    exact Schema.touches_enums (touches_removeFirst he)
  | helperAdded ht hd he =>
    rw [hkind .helper (congrArg _ hd), ht]
    exact Schema.touches_helpers (touches_appendNew (hname (congrArg _ ht) _ (congrArg _ hd)) he)
  | helperRemoved ht hd he =>
    rw [hkind .helper (congrArg _ hd), ht]
    exact Schema.touches_helpers (touches_removeFirst he)
  | tableAdded ht hd he =>
    rw [hkind .table (congrArg _ hd), ht]
    exact Schema.touches_tables (touches_appendNew (hname (congrArg _ ht) _ (congrArg _ hd)) he)
  | tableRemoved ht hd he =>
    rw [hkind .table (congrArg _ hd), ht]
    exact Schema.touches_tables (touches_removeFirst he)
  | enumChanged ht hk h hf =>
    rw [hkind .enum hk, ht]
    exact Schema.touches_updateEnum h hf
  | tableChanged ht hk h hf =>
    rw [hkind .table hk, ht]
    exact Schema.touches_updateTable h hf
  | columnsChanged ht h =>
    rw [ht]
    exact Schema.touches_updateColumns h

/-! ## Runs of changes -/

section
variable {s s' : Schema} {r : EntityRef}

/-- An entity is counted among those that a filter of kinds and names keeps. -/
theorem Schema.count_filter_ref {q : EntityRef → Bool} (hr : q r = true) :
    ((s.entities.filter fun e => q e.ref).map Entity.ref).count r = s.countRef r := by
  have hmap : (s.entities.filter fun e => q e.ref).map Entity.ref =
      (s.entities.map Entity.ref).filter q := by
    rw [List.filter_map]
    rfl
  rw [hmap, List.count_filter hr, countRef]

/-- Other entities are as often there as before. -/
theorem Schema.Touches.countRef {there : Bool} {r' : EntityRef} (h : s.Touches r there s')
    (hr : r' ≠ r) : s'.countRef r' = s.countRef r' := by
  have hq : decide (r' ≠ r) = true := decide_eq_true hr
  rw [← count_filter_ref (q := fun r' => decide (r' ≠ r)) hq,
    ← count_filter_ref (q := fun r' => decide (r' ≠ r)) hq, h.others]

end

namespace Footprint

/-- The entities that changes touch. -/
def touched (f : Footprint) : List EntityRef := f.affected ++ f.removed

variable {f : Footprint} {c : Change} {cs : List Change} {base s s' : Schema} {r : EntityRef}

theorem mem_affected_add : r ∈ (f.add c).affected ↔
    (r = c.entity ∧ c.type.removesEntity = false) ∨ (r ∈ f.affected ∧ r ≠ c.entity) := by
  rw [add]
  dsimp only
  cases c.type.removesEntity <;> simp

theorem mem_removed_add : r ∈ (f.add c).removed ↔
    (r = c.entity ∧ c.type.removesEntity = true) ∨ (r ∈ f.removed ∧ r ≠ c.entity) := by
  rw [add]
  dsimp only
  cases c.type.removesEntity <;> simp

theorem mem_touched_add : r ∈ (f.add c).touched ↔ r = c.entity ∨ r ∈ f.touched := by
  rw [touched, touched, List.mem_append, List.mem_append, mem_affected_add, mem_removed_add]
  by_cases hr : r = c.entity
  · cases c.type.removesEntity <;> simp [hr]
  · simp [hr]

/-- What the changes of a footprint make of a schema. -/
structure Follows (f : Footprint) (base s : Schema) : Prop where
  others : s.entities.filter (fun e => e.ref ∉ f.touched) =
    base.entities.filter fun e => e.ref ∉ f.touched
  affected : ∀ r ∈ f.affected, s.countRef r = 1
  removed : ∀ r ∈ f.removed, s.countRef r = 0

theorem Follows.refl (base : Schema) : Follows {} base base where
  others := rfl
  affected _ hr := absurd hr List.not_mem_nil
  removed _ hr := absurd hr List.not_mem_nil

theorem Follows.countRef_le_one (h : f.Follows base s) (hr : r ∈ f.touched) : s.countRef r ≤ 1 := by
  rcases List.mem_append.1 hr with ha | hd
  · exact Nat.le_of_eq (h.affected r ha)
  · exact Nat.le_trans (Nat.le_of_eq (h.removed r hd)) (Nat.zero_le 1)

/-- An entity that is touched later is there at most once if it was so at
    first. -/
theorem Follows.countRef_le (h : f.Follows base s) (hr : base.countRef r ≤ 1) :
    s.countRef r ≤ 1 := by
  by_cases ht : r ∈ f.touched
  · exact h.countRef_le_one ht
  · have hq : decide (r ∉ f.touched) = true := decide_eq_true ht
    rw [← Schema.count_filter_ref (q := fun r => decide (r ∉ f.touched)) hq] at hr ⊢
    rwa [h.others]

/-- The entities that are touched have different kinds and names. -/
theorem Follows.nodup_touched (h : f.Follows base s) :
    ((s.entities.filter fun e => e.ref ∈ f.touched).map Entity.ref).Nodup := by
  refine List.nodup_iff_count_le_one.2 fun r => ?_
  by_cases ht : r ∈ f.touched
  · rw [Schema.count_filter_ref (q := fun r => decide (r ∈ f.touched)) (decide_eq_true ht)]
    exact h.countRef_le_one ht
  · rw [List.count_eq_zero.2]
    · exact Nat.zero_le 1
    · intro hm
      obtain ⟨e, he, rfl⟩ := List.mem_map.1 hm
      exact ht (of_decide_eq_true (List.mem_filter.1 he).2)

/-- **One change more.** -/
theorem Follows.step (h : f.Follows base s) (hc : c.Proper) (hbase : base.countRef c.entity ≤ 1)
    (ha : c.apply s = .ok s') : (f.add c).Follows base s' := by
  have ht := c.touches hc ha
  have hsplit : ∀ es : List Entity, es.filter (fun e => e.ref ∉ (f.add c).touched) =
      (es.filter fun e => e.ref ∉ f.touched).filter fun e => e.ref ≠ c.entity := fun es => by
    rw [List.filter_filter]
    refine List.filter_congr fun e _ => ?_
    simp [mem_touched_add]
  have hcomm : ∀ es : List Entity,
      (es.filter fun e => e.ref ∉ f.touched).filter (fun e => e.ref ≠ c.entity) =
        (es.filter fun e => e.ref ≠ c.entity).filter fun e => e.ref ∉ f.touched := fun es => by
    rw [List.filter_filter, List.filter_filter]
    exact List.filter_congr fun e _ => Bool.and_comm _ _
  refine ⟨?_, fun r hr => ?_, fun r hr => ?_⟩
  · rw [hsplit, hsplit, hcomm, ht.others, ← hcomm, h.others]
  · rcases mem_affected_add.1 hr with ⟨rfl, hadds⟩ | ⟨hr, hne⟩
    · rw [ht.count (h.countRef_le hbase), hadds]
      rfl
    · rw [ht.countRef hne, h.affected r hr]
  · rcases mem_removed_add.1 hr with ⟨rfl, hremoves⟩ | ⟨hr, hne⟩
    · rw [ht.count (h.countRef_le hbase), hremoves]
      rfl
    · rw [ht.countRef hne, h.removed r hr]

/-- **The footprint of changes tells what becomes of every entity**: those that
    are affected are there, those that are removed are not, and all others are as
    they were. -/
theorem follows_of_merge (hproper : ∀ c ∈ cs, c.Proper)
    (hbase : ∀ c ∈ cs, base.countRef c.entity ≤ 1) (hm : base.merge cs = .ok s) :
    (ofChanges cs).Follows base s := by
  have hrun : ∀ (f : Footprint) (s' : Schema), f.Follows base s' → s'.merge cs = .ok s →
      (cs.foldl add f).Follows base s := by
    clear hm
    induction cs with
    | nil => exact fun f s' h hm => (Except.ok.inj hm) ▸ h
    | cons c cs ih =>
      intro f s' h hm
      rw [List.forall_mem_cons] at hproper hbase
      rw [Schema.merge, List.foldlM_cons] at hm
      obtain ⟨next, ha, hm⟩ := bind_eq_ok.1 hm
      exact ih hproper.2 hbase.2 (f.add c) next (h.step hproper.1 hbase.1 ha) hm
  exact hrun {} base (.refl base) hm

/-- Every entity that is touched is that of a change. -/
theorem mem_touched_ofChanges : r ∈ (ofChanges cs).touched ↔ ∃ c ∈ cs, c.entity = r := by
  have hrun : ∀ f : Footprint, r ∈ (cs.foldl add f).touched ↔
      (∃ c ∈ cs, c.entity = r) ∨ r ∈ f.touched := by
    induction cs with
    | nil => simp
    | cons c cs ih =>
      intro f
      rw [List.foldl_cons, ih, mem_touched_add, List.exists_mem_cons_iff, or_left_comm, or_assoc,
        @eq_comm _ r]
  exact (hrun {}).trans (or_iff_left List.not_mem_nil)

theorem nodup_affected (cs : List Change) : (ofChanges cs).affected.Nodup := by
  have hrun : ∀ f : Footprint, f.affected.Nodup → (cs.foldl add f).affected.Nodup := by
    induction cs with
    | nil => exact fun f h => h
    | cons c cs ih =>
      intro f h
      refine ih _ ?_
      rw [add]
      dsimp only
      split
      · exact h.filter _
      · exact List.nodup_cons.2 ⟨by simp, h.filter _⟩
  exact hrun {} List.nodup_nil

end Footprint

/-! ## The order of entities -/

/-- Entities in their order are the same entities. -/
theorem inEntityOrder_perm (refs : List EntityRef) : (inEntityOrder refs).Perm refs := by
  have hkind : ∀ kind, ((((refs.filter fun r => r.kind = kind).map EntityRef.name).mergeSort).map
      (EntityRef.mk kind)).Perm (refs.filter fun r => r.kind = kind) := fun kind => by
    refine ((List.mergeSort_perm _ _).map _).trans (.of_eq ?_)
    rw [List.map_map]
    refine (List.map_congr_left fun r hr => ?_).trans (List.map_id _)
    rw [← of_decide_eq_true (List.mem_filter.1 hr).2]
    rfl
  simp only [inEntityOrder, EntityKind.all, List.flatMap_cons, List.flatMap_nil, List.append_nil]
  refine ((hkind _).append ((hkind _).append (hkind _))).trans (List.perm_iff_count.2 fun r => ?_)
  have hcount : ∀ kind, (refs.filter fun r => r.kind = kind).count r =
      if r.kind = kind then refs.count r else 0 := fun kind => by
    by_cases hk : r.kind = kind
    · rw [if_pos hk, List.count_filter (by simpa using hk)]
    · rw [if_neg hk, List.count_eq_zero]
      exact fun hm => hk (of_decide_eq_true (List.mem_filter.1 hm).2)
  rw [List.count_append, List.count_append, hcount, hcount, hcount]
  cases r.kind <;> simp

end SchemaLoom
