/-
  The generated entities of a whole schema.

  * `Schema.mem_entities`: they are what enums, helpers and tables generate;
  * `Schema.entities_refs`: if nothing fails, there is one for each entity, in
    their order.
-/
import SchemaLoom.Module.Batch
import SchemaLoom.Proofs.Module.Generation
import SchemaLoom.Proofs.Validation

namespace SchemaLoom

variable {s : Schema} {g : GeneratedEntity}

theorem EnumDef.ref_generate {e : EnumDef} (h : e.generate = .ok g) :
    g.kind = .enum ∧ g.name = e.name := by
  obtain ⟨-, rfl⟩ := generate_eq_ok_iff.1 h
  exact ⟨rfl, rfl⟩

theorem HelperDef.ref_generate {h : HelperDef} (hg : h.generate = .ok g) :
    g.kind = .helper ∧ g.name = h.name := by
  obtain ⟨-, body, -, rfl⟩ := generate_eq_ok_iff.1 hg
  exact ⟨rfl, rfl⟩

theorem TableDef.ref_generate {t : TableDef} (h : t.generate = .ok g) :
    g.kind = .table ∧ g.name = t.name := by
  obtain ⟨-, body, -, rfl⟩ := generate_eq_ok_iff.1 h
  exact ⟨rfl, rfl⟩

namespace Schema

/-- The generated entities are what the attempts made. -/
theorem mem_entities_iff : g ∈ s.generateBatch.entities ↔ Except.ok g ∈ s.attempts := by
  rw [generateBatch, List.mem_filterMap]
  constructor
  · rintro ⟨a, ha, h⟩
    cases a with
    | error e => cases h
    | ok e => exact Option.some.inj h ▸ ha
  · exact fun h => ⟨.ok g, h, rfl⟩

/-- **The generated entities are those of enums, helpers and tables.** -/
theorem mem_entities : g ∈ s.generateBatch.entities ↔
    (∃ e ∈ s.enums, e.generate = .ok g) ∨ (∃ h ∈ s.helpers, h.generate = .ok g) ∨
      ∃ t ∈ s.tables, t.generate = .ok g := by
  rw [mem_entities_iff, attempts, List.append_assoc, List.mem_append, List.mem_append,
    List.mem_map, List.mem_map, List.mem_map]
  simp only [mapError_eq_ok]

/-- The entities that could be written, kind by kind. -/
theorem entities_generateBatch (s : Schema) : s.generateBatch.entities =
    s.enums.filterMap (fun e => e.generate.toOption) ++
      s.helpers.filterMap (fun h => h.generate.toOption) ++
      s.tables.filterMap (fun t => t.generate.toOption) := by
  rw [generateBatch, attempts]
  dsimp only
  rw [List.filterMap_append, List.filterMap_append, List.filterMap_map, List.filterMap_map,
    List.filterMap_map]
  congr 1
  congr 1
  all_goals
    refine List.filterMap_congr fun x _ => ?_
    rw [Function.comp_apply]
    cases x.generate <;> rfl

/-- Each entity that is attempted is generated if nothing fails. -/
theorem exists_of_attempt (h : s.generateBatch.errors = [])
    {a : Except EntityError GeneratedEntity} (ha : a ∈ s.attempts) : ∃ g, a = .ok g := by
  cases a with
  | ok g => exact ⟨g, rfl⟩
  | error e =>
    rw [generateBatch, List.filterMap_eq_nil_iff] at h
    exact nomatch h _ ha

theorem generate_of_helper (h : s.generateBatch.errors = []) {helper : HelperDef}
    (hh : helper ∈ s.helpers) : ∃ g ∈ s.generateBatch.entities, helper.generate = .ok g := by
  obtain ⟨g, hg⟩ := exists_of_attempt h
    (List.mem_append_left _ (List.mem_append_right _ (List.mem_map_of_mem hh)))
  have hg := mapError_eq_ok.1 hg
  exact ⟨g, mem_entities.2 (.inr (.inl ⟨helper, hh, hg⟩)), hg⟩

theorem generate_of_table (h : s.generateBatch.errors = []) {t : TableDef} (ht : t ∈ s.tables) :
    ∃ g ∈ s.generateBatch.entities, t.generate = .ok g := by
  obtain ⟨g, hg⟩ := exists_of_attempt h (List.mem_append_right _ (List.mem_map_of_mem ht))
  have hg := mapError_eq_ok.1 hg
  exact ⟨g, mem_entities.2 (.inr (.inr ⟨t, ht, hg⟩)), hg⟩

/-- The kinds and names of the entities, in their order. -/
def refs (s : Schema) : List (EntityKind × String) :=
  EntityKind.all.flatMap fun kind => (s.namesOf kind).map fun name => (kind, name)

theorem mem_refs {kind : EntityKind} {name : String} :
    (kind, name) ∈ s.refs ↔ name ∈ s.namesOf kind := by
  rw [refs, List.mem_flatMap]
  constructor
  · rintro ⟨other, -, h⟩
    obtain ⟨n, hn, he⟩ := List.mem_map.1 h
    obtain ⟨rfl, rfl⟩ := Prod.mk.inj he
    exact hn
  · exact fun h => ⟨kind, kind.mem_all, List.mem_map.2 ⟨name, h, rfl⟩⟩

theorem nodup_refs (hv : hasErrors s.validate = false) : s.refs.Nodup := by
  rw [refs, List.nodup_flatMap]
  refine ⟨fun kind _ => (nodup_namesOf hv kind).map fun a b h => (Prod.mk.inj h).2, ?_⟩
  refine List.Pairwise.imp ?_ (show EntityKind.all.Nodup by decide)
  intro a b hab ref ha hb
  obtain ⟨n, -, rfl⟩ := List.mem_map.1 ha
  obtain ⟨m, -, he⟩ := List.mem_map.1 hb
  exact hab (Prod.mk.inj he).1.symm

/-- What is generated of the entities of one kind, where `kept` keeps what is
    generated. -/
theorem refs_of_attempts {α : Type} {generate : α → Except GenerationError GeneratedEntity}
    {name : α → String} (kind : EntityKind)
    (href : ∀ {x g}, generate x = .ok g → g.kind = kind ∧ g.name = name x)
    {kept : Except EntityError GeneratedEntity → Option GeneratedEntity}
    (hkept : ∀ g, kept (.ok g) = some g) {xs : List α}
    (hall : ∀ a ∈ xs.map (fun x => (generate x).mapError (EntityError.mk kind (name x))),
      ∃ g, a = .ok g) :
    ((xs.map fun x => (generate x).mapError (EntityError.mk kind (name x))).filterMap kept).map
        (fun g => (g.kind, g.name)) = (xs.map name).map fun name => (kind, name) := by
  induction xs with
  | nil => rfl
  | cons x xs ih =>
    rw [List.map_cons] at hall
    obtain ⟨hx, hxs⟩ := List.forall_mem_cons.1 hall
    obtain ⟨g, hg⟩ := hx
    obtain ⟨hk, hn⟩ := href (mapError_eq_ok.1 hg)
    rw [List.map_cons, hg, List.filterMap_cons_some (hkept g), List.map_cons, ih hxs, hk, hn,
      List.map_cons, List.map_cons]

/-- **If nothing fails, each entity is generated, in their order.** -/
theorem entities_refs (h : s.generateBatch.errors = []) :
    s.generateBatch.entities.map (fun g => (g.kind, g.name)) = s.refs := by
  have hall := fun a ha => exists_of_attempt h (a := a) ha
  rw [attempts] at hall
  obtain ⟨henums, htables⟩ := List.forall_mem_append.1 hall
  obtain ⟨henums, hhelpers⟩ := List.forall_mem_append.1 henums
  rw [generateBatch]
  dsimp only
  rw [attempts, List.filterMap_append, List.filterMap_append, List.map_append, List.map_append,
    refs_of_attempts .enum EnumDef.ref_generate (fun _ => rfl) henums,
    refs_of_attempts .helper HelperDef.ref_generate (fun _ => rfl) hhelpers,
    refs_of_attempts .table TableDef.ref_generate (fun _ => rfl) htables]
  simp only [refs, EntityKind.all, List.flatMap_cons, List.flatMap_nil, List.append_nil, namesOf,
    List.append_assoc]

theorem exists_entity (h : s.generateBatch.errors = []) {kind : EntityKind} {name : String}
    (hn : name ∈ s.namesOf kind) :
    ∃ g ∈ s.generateBatch.entities, g.kind = kind ∧ g.name = name := by
  have hr := mem_refs.2 hn
  rw [← entities_refs h] at hr
  obtain ⟨g, hg, he⟩ := List.mem_map.1 hr
  exact ⟨g, hg, Prod.mk.inj he⟩

theorem mem_namesOf_of_entity (h : s.generateBatch.errors = [])
    (hg : g ∈ s.generateBatch.entities) : g.name ∈ s.namesOf g.kind := by
  rw [← mem_refs, ← entities_refs h]
  exact List.mem_map_of_mem hg

end Schema

end SchemaLoom
