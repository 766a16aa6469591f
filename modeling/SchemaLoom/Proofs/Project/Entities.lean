/-
  The modules of a project as entities.

  * `Entity.read_render`: the module of an entity is read as its canonical form;
  * `ReadResult.ofModules_errors`, `ReadResult.entities_ofModules`: modules are
    read without a fault exactly if each declares an entity, and these are the
    entities that are read.
-/
import SchemaLoom.Project.Materialize
import SchemaLoom.Proofs.Change.Footprint
import SchemaLoom.Proofs.Module.Batch
import SchemaLoom.Proofs.Module.RoundTrip
import SchemaLoom.Proofs.Schema.Canonical

namespace SchemaLoom

/-! ## Generated entities -/

/-- The kind and name of a generated entity. -/
def GeneratedEntity.ref (g : GeneratedEntity) : EntityRef := ⟨g.kind, g.name⟩

namespace Entity

/-- The entity, if it is an enum. -/
def enum? : Entity → Option EnumDef
  | enum e => some e
  | _ => none

/-- The entity, if it is a helper. -/
def helper? : Entity → Option HelperDef
  | helper h => some h
  | _ => none

/-- The entity, if it is a table. -/
def table? : Entity → Option TableDef
  | table t => some t
  | _ => none

/-- The form that an entity has after being generated and read back. -/
def canonical : Entity → Entity
  | enum e => enum e.canonical
  | helper h => helper h.canonical
  | table t => table t.canonical

/-- Generates an entity. -/
def generate : Entity → Except GenerationError GeneratedEntity
  | enum e => e.generate
  | helper h => h.generate
  | table t => t.generate

/-- The reader tells every column of the entity for what it is. -/
def Readable : Entity → Prop
  | enum _ => True
  | helper h => ∀ c ∈ h.columns, c.Readable
  | table t => t.Readable

/-- The entity that a module of a kind and a name declares. -/
def read (kind : EntityKind) (name text : String) : Except Source.Error Entity :=
  match kind with
  | .enum => (Source.readEnum text).map enum
  | .helper => (Source.readHelper text).map helper
  | .table => (Source.readTable name text).map table

variable {e : Entity} {g : GeneratedEntity}

@[simp] theorem ref_canonical (e : Entity) : e.canonical.ref = e.ref := by cases e <;> rfl

theorem map_ref_canonical (es : List Entity) :
    (es.map canonical).map ref = es.map ref := by
  rw [List.map_map]
  exact List.map_congr_left fun e _ => ref_canonical e

theorem canonical_canonical (e : Entity) : e.canonical.canonical = e.canonical := by
  cases e with
  | enum e => exact congrArg enum e.canonical_canonical
  | helper h => exact congrArg helper h.canonical_canonical
  | table t => exact congrArg table t.canonical_canonical

theorem ref_generate (h : e.generate = .ok g) : g.ref = e.ref := by
  have href : ∀ {kind name}, g.kind = kind ∧ g.name = name → g.ref = ⟨kind, name⟩ := by
    rintro _ _ ⟨rfl, rfl⟩
    rfl
  cases e with
  | enum e => exact href (EnumDef.ref_generate h)
  | helper h' => exact href (HelperDef.ref_generate h)
  | table t => exact href (TableDef.ref_generate h)

/-- The name of an entity that is generated is declared. -/
theorem isIdentifier_of_generate (h : e.generate = .ok g) : Text.isIdentifier g.name = true := by
  have hbinding : Text.isBindingName e.ref.name = true := by
    cases e with
    | enum e => exact (EnumDef.generate_eq_ok_iff.1 h).1.binding
    | helper h' => exact (HelperDef.generate_eq_ok_iff.1 h).1.binding
    | table t => exact (TableDef.generate_eq_ok_iff.1 h).1.binding
  rw [show g.name = e.ref.name from congrArg EntityRef.name (ref_generate h)]
  exact isIdentifier_of_isBindingName hbinding

/-- **The module of an entity is read as its canonical form.** -/
theorem read_render (h : e.generate = .ok g) (hr : e.Readable) (scope : ImportScope) :
    read g.kind g.name (g.render scope) = .ok e.canonical := by
  cases e with
  | enum e =>
    obtain ⟨hk, -⟩ := EnumDef.ref_generate h
    rw [hk, read, EnumDef.read_render h]
    rfl
  | helper h' =>
    obtain ⟨hk, -⟩ := HelperDef.ref_generate h
    rw [hk, read, HelperDef.read_render h hr]
    rfl
  | table t =>
    obtain ⟨hk, hn⟩ := TableDef.ref_generate h
    rw [hk, hn, read, TableDef.read_render h hr]
    rfl

end Entity

/-! ## Schemas by their entities -/

namespace Schema

variable {s : Schema} {r : EntityRef} {g : GeneratedEntity}

theorem entities_canonical (s : Schema) :
    s.canonical.entities = s.entities.map Entity.canonical := by
  simp only [entities, canonical, List.map_append, List.map_map]
  rfl

/-- What is generated anew is an entity of the schema. -/
theorem exists_of_regenerate (h : s.regenerate r = .ok g) :
    ∃ e ∈ s.entities, e.ref = r ∧ e.generate = .ok g := by
  obtain ⟨kind, name⟩ := r
  simp only [regenerate] at h
  split at h
  next generated hfound =>
    replace h := hfound.trans (congrArg some (mapError_eq_ok.1 h))
    cases kind with
    | enum =>
      obtain ⟨e, he, hg⟩ := Option.map_eq_some_iff.1 h
      have hn := List.find?_some he
      refine ⟨.enum e, ?_, congrArg _ (beq_iff_eq.1 hn), hg⟩
      exact List.mem_append_left _ (List.mem_append_left _
        (List.mem_map_of_mem (List.mem_of_find?_eq_some he)))
    | helper =>
      obtain ⟨e, he, hg⟩ := Option.map_eq_some_iff.1 h
      have hn := List.find?_some he
      refine ⟨.helper e, ?_, congrArg _ (beq_iff_eq.1 hn), hg⟩
      exact List.mem_append_left _ (List.mem_append_right _
        (List.mem_map_of_mem (List.mem_of_find?_eq_some he)))
    | table =>
      obtain ⟨e, he, hg⟩ := Option.map_eq_some_iff.1 h
      have hn := List.find?_some he
      refine ⟨.table e, ?_, congrArg _ (beq_iff_eq.1 hn), hg⟩
      exact List.mem_append_right _ (List.mem_map_of_mem (List.mem_of_find?_eq_some he))
  next => cases h

/-- Entities of one kind and name are the same if there is only one. -/
theorem eq_of_countRef (h : s.countRef r = 1) {a b : Entity} (ha : a ∈ s.entities)
    (hb : b ∈ s.entities) (har : a.ref = r) (hbr : b.ref = r) : a = b := by
  have hone : (s.entities.filter fun e => e.ref == r).length = 1 := by
    rw [← List.countP_eq_length_filter, ← h, countRef, List.count_eq_countP, List.countP_map]
    rfl
  obtain ⟨c, hc⟩ := List.length_eq_one_iff.1 hone
  have hmem : ∀ {e}, e ∈ s.entities → e.ref = r → e = c := fun he her =>
    List.mem_singleton.1 (hc ▸ List.mem_filter.2 ⟨he, beq_iff_eq.2 her⟩)
  rw [hmem ha har, hmem hb hbr]

theorem countRef_pos {e : Entity} (h : e ∈ s.entities) : s.countRef e.ref ≠ 0 :=
  Nat.ne_of_gt (List.count_pos_iff.2 (List.mem_map_of_mem h))

/-- The schemas have the same entities, up to their order. -/
structure SameEntities (r s : Schema) : Prop where
  enums : r.enums.Perm s.enums
  helpers : r.helpers.Perm s.helpers
  tables : r.tables.Perm s.tables

theorem enums_of_entities (s : Schema) : s.entities.filterMap Entity.enum? = s.enums := by
  simp [entities, List.filterMap_map, Function.comp_def, Entity.enum?]

theorem helpers_of_entities (s : Schema) : s.entities.filterMap Entity.helper? = s.helpers := by
  simp [entities, List.filterMap_map, Function.comp_def, Entity.helper?]

theorem tables_of_entities (s : Schema) : s.entities.filterMap Entity.table? = s.tables := by
  simp [entities, List.filterMap_map, Function.comp_def, Entity.table?]

theorem sameEntities_of_perm {r s : Schema} (h : r.entities.Perm s.entities) :
    r.SameEntities s where
  enums := enums_of_entities r ▸ enums_of_entities s ▸ h.filterMap _
  helpers := helpers_of_entities r ▸ helpers_of_entities s ▸ h.filterMap _
  tables := tables_of_entities r ▸ tables_of_entities s ▸ h.filterMap _

/-- The schema with one entity more. -/
def addEntity (s : Schema) : Entity → Schema
  | .enum e => { s with enums := s.enums ++ [e] }
  | .helper h => { s with helpers := s.helpers ++ [h] }
  | .table t => { s with tables := s.tables ++ [t] }

theorem addModule_eq (s : Schema) (kind : EntityKind) (name text : String) :
    s.addModule kind name text = (Entity.read kind name text).map s.addEntity := by
  cases kind with
  | enum =>
    simp only [addModule, Entity.read]
    cases Source.readEnum text <;> rfl
  | helper =>
    simp only [addModule, Entity.read]
    cases Source.readHelper text <;> rfl
  | table =>
    simp only [addModule, Entity.read]
    cases Source.readTable name text <;> rfl

theorem entities_addEntity (s : Schema) (e : Entity) :
    (s.addEntity e).entities.Perm (s.entities ++ [e]) := by
  cases e with
  | enum e =>
    simp only [addEntity, entities, List.map_append, List.map_singleton, List.append_assoc]
    refine .append_left _ ?_
    rw [← List.append_assoc (s.helpers.map _)]
    exact (List.perm_append_singleton (Entity.enum e) _).symm
  | helper h =>
    simp only [addEntity, entities, List.map_append, List.map_singleton, List.append_assoc]
    exact .append_left _ (.append_left _ List.perm_append_comm)
  | table t =>
    simp only [addEntity, entities, List.map_append, List.map_singleton, List.append_assoc]
    exact .refl _

end Schema

/-! ## Modules -/

/-- The entity that a module declares, if its file can be read. -/
def FetchedModule.entity? (f : FetchedModule) : Option Entity :=
  f.text.toOption.bind fun text => (Entity.read f.kind f.file.stem text).toOption

/-- A module declares an entity if its text can be read. -/
theorem FetchedModule.entity?_eq_some {f : FetchedModule} {e : Entity} :
    f.entity? = some e ↔
      ∃ text, f.text = .ok text ∧ Entity.read f.kind f.file.stem text = .ok e := by
  simp only [entity?, Option.bind_eq_some_iff, toOption_eq_some]

/-- A module declares an entity of its kind. -/
theorem FetchedModule.kind_of_entity? {f : FetchedModule} {e : Entity} (h : f.entity? = some e) :
    e.ref.kind = f.kind := by
  obtain ⟨text, -, h⟩ := entity?_eq_some.1 h
  cases hk : f.kind <;>
    · rw [hk] at h
      obtain ⟨_, -, rfl⟩ := map_eq_ok_iff.1 h
      rfl

namespace ReadResult

variable {r : ReadResult} {f : FetchedModule} {e : Entity}

theorem add_entity (h : f.entity? = some e) :
    (r.add f).errors = r.errors ∧ (r.add f).schema = r.schema.addEntity e := by
  obtain ⟨text, ht, he⟩ := FetchedModule.entity?_eq_some.1 h
  simp only [add, ht, Schema.addModule_eq, he]
  exact ⟨rfl, rfl⟩

theorem add_none (h : f.entity? = none) :
    (r.add f).errors ≠ [] ∧ (r.add f).schema = r.schema := by
  have hfailed : ∀ fault, r.errors ++ [⟨some f.file.path, fault⟩] ≠ [] := fun fault =>
    List.append_ne_nil_of_right_ne_nil _ (List.cons_ne_nil _ _)
  cases ht : f.text with
  | error e =>
    simp only [add, ht]
    exact ⟨hfailed _, trivial⟩
  | ok text =>
    cases he : Entity.read f.kind f.file.stem text with
    | error e =>
      simp only [add, ht, Schema.addModule_eq, he]
      exact ⟨hfailed _, rfl⟩
    | ok e =>
      rw [FetchedModule.entity?_eq_some.2 ⟨text, ht, he⟩] at h
      cases h

variable {fetched : List FetchedModule}

theorem foldl_add_errors_eq_nil : (fetched.foldl add r).errors = [] ↔
    r.errors = [] ∧ ∀ f ∈ fetched, f.entity?.isSome := by
  induction fetched generalizing r with
  | nil => simp
  | cons f fetched ih =>
    rw [List.foldl_cons, ih, List.forall_mem_cons, ← and_assoc]
    refine and_congr_left fun _ => ?_
    cases h : f.entity? with
    | some e => simp [(add_entity (r := r) h).1]
    | none => simp [(add_none (r := r) h).1]

theorem entities_foldl_add (fetched : List FetchedModule) (r : ReadResult) :
    (fetched.foldl add r).schema.entities.Perm
      (r.schema.entities ++ fetched.filterMap FetchedModule.entity?) := by
  induction fetched generalizing r with
  | nil => simp
  | cons f fetched ih =>
    refine (ih (r.add f)).trans ?_
    cases h : f.entity? with
    | some e =>
      rw [(add_entity h).2, List.filterMap_cons_some h, List.append_cons]
      exact (Schema.entities_addEntity _ _).append_right _
    | none => rw [(add_none h).2, List.filterMap_cons_none h]

/-- **Modules are read without a fault exactly if each declares an entity.** -/
theorem ofModules_errors {root : Path} : (ofModules root fetched).errors = [] ↔
    ∀ f ∈ fetched, f.entity?.isSome :=
  foldl_add_errors_eq_nil.trans (and_iff_right rfl)

/-- **The entities that are read are those that the modules declare.** -/
theorem entities_ofModules (root : Path) (fetched : List FetchedModule) :
    (ofModules root fetched).schema.entities.Perm (fetched.filterMap FetchedModule.entity?) :=
  entities_foldl_add fetched (start root)

end ReadResult

end SchemaLoom
