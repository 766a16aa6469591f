/-
  A project in which changes were made, read again.

  Making changes rewrites the modules of the entities that the changes touch,
  and the reader tells an enum or a helper by what its module declares.  If each
  entity that is touched is in the module of its name, both agree.

  * `materialize_reread`: the project that was changed is read as the schema into
    which the changes are merged.
-/
import SchemaLoom.Proofs.Project.Fetched
import SchemaLoom.Proofs.Project.Rewriting

namespace SchemaLoom

variable {root : Path} {t u : Tree} {e : Entity} {f : FetchedModule}

/-! ## Modules that are rewritten -/

/-- What becomes of a project when changes with a footprint are made that lead to
    a schema: the modules of removed entities are gone, and those of affected
    ones are written. -/
structure Rebuilt (root : Path) (f : Footprint) (merged : Schema) (t u : Tree) : Prop where
  passable : t.Passable root.stem
  rewritten : Rewritten root f.touched t u
  gone : ∀ r ∈ f.removed, r.name ≠ "index" → ∀ bytes, u.get? (r.place root) ≠ some (.file bytes)
  present : ∀ r ∈ f.affected, ∃ e ∈ merged.entities, e.ref = r ∧ ∃ g, e.generate = .ok g ∧
    Present root (moduleText merged.tables) g u

/-- The module of an entity that was written declares its canonical form. -/
theorem entity?_ofFile {g : GeneratedEntity} (hg : e.generate = .ok g) (hr : e.Readable)
    (dir : Path) (tables : List TableDef) :
    (FetchedModule.ofFile e.ref.kind dir (moduleFile e.ref.name)
      (moduleText tables g).toUTF8).entity? = some e.canonical := by
  have hne : g.name ≠ "" := by
    intro he
    have hn := Entity.isIdentifier_of_generate hg
    rw [he] at hn
    exact absurd hn (by decide)
  rw [← Entity.ref_generate hg]
  refine FetchedModule.entity?_eq_some.2 ⟨moduleText tables g, ?_, ?_⟩
  · rw [FetchedModule.ofFile, Tree.fromUTF8?_toUTF8]
  · rw [FetchedModule.ofFile, GeneratedEntity.ref, moduleStem_moduleFile hne]
    exact Entity.read_render hg hr _

namespace Rebuilt

variable {fp : Footprint} {base merged : Schema} (h : Rebuilt root fp merged t u)
include h

/-- Modules in other files stay. -/
theorem mem_allFetched_iff (hf : ¬ f.IsOf fp.touched) :
    f ∈ allFetched u root ↔ f ∈ allFetched t root := by
  have hplace : ∀ {dir name bytes}, f = .ofFile f.kind dir name bytes →
      placeOf root f.kind name ∉ fp.touched.map (EntityRef.place root) := by
    intro dir name bytes he hm
    obtain ⟨r, hr, hp⟩ := List.mem_map.1 hm
    obtain ⟨hk, hn⟩ := placeOf_injective hp
    exact hf ⟨r, hr, hk, by rw [he, FetchedModule.fileName_ofFile, hn]⟩
  have hindex : ∀ {dir name}, Tree.Listable root f.kind dir name → name ≠ indexName := by
    intro dir name hl
    have hm := hl.named
    rw [isModuleName, Bool.and_eq_true, bne_iff_ne] at hm
    exact hm.2
  rw [mem_allFetched, mem_allFetched, mem_fetched_iff h.passable,
    mem_fetched_iff (h.rewritten.passable h.passable)]
  constructor
  · rintro ⟨dir, name, bytes, hd, hl, hget, he⟩
    exact ⟨dir, name, bytes, hd, hl,
      (h.rewritten.file f.kind name bytes (hindex hl) (hplace he)).1 hget, he⟩
  · rintro ⟨dir, name, bytes, hd, hl, hget, he⟩
    exact ⟨dir, name, bytes, hd, hl,
      (h.rewritten.file f.kind name bytes (hindex hl) (hplace he)).2 hget, he⟩

section
variable (hr : ∀ e ∈ merged.entities, e.ref ∈ fp.affected → e.Readable)
include hr

/-- A module in the file of an entity that is touched declares one that is
    affected, as it is in the schema. -/
theorem exists_entity (hm : f ∈ allFetched u root) (hf : f.IsOf fp.touched) :
    ∃ e ∈ merged.entities, e.ref ∈ fp.affected ∧ f.entity? = some e.canonical ∧
      moduleFile e.ref.name = f.fileName := by
  obtain ⟨r, hr', hk, hn⟩ := hf
  obtain ⟨dir, name, bytes, -, hl, hget, he⟩ :=
    (mem_fetched_iff (h.rewritten.passable h.passable)).1 (mem_allFetched.1 hm)
  rw [he, FetchedModule.fileName_ofFile] at hn
  subst hn
  rw [← hk] at hget
  have hi : r.name ≠ "index" := isModuleName_moduleFile.1 hl.named
  rcases List.mem_append.1 hr' with ha | hd
  · obtain ⟨e, hmem, rfl, g, hg, hpresent⟩ := h.present r ha
    have hthere : u.get? (e.ref.place root) = some (.file (moduleText merged.tables g).toUTF8) :=
      Entity.ref_generate hg ▸ hpresent.there
    rw [EntityRef.place, hget] at hthere
    refine ⟨e, hmem, ha, ?_, by rw [he, FetchedModule.fileName_ofFile]⟩
    rw [he, ← hk, Entry.file.inj (Option.some.inj hthere)]
    exact entity?_ofFile hg (hr e hmem ha) dir merged.tables
  · exact absurd hget (h.gone r hd hi bytes)

/-- A project that was rebuilt is read without a fault. -/
theorem isSome_entity? (hall : ∀ f ∈ allFetched t root, f.entity?.isSome) :
    ∀ f ∈ allFetched u root, f.entity?.isSome := by
  intro f hf
  by_cases hof : f.IsOf fp.touched
  · obtain ⟨e, -, -, he, -⟩ := h.exists_entity hr hf hof
    rw [he]
    rfl
  · exact hall f ((h.mem_allFetched_iff hof).1 hf)

end

/-! ## The entities that are read -/

/-- Entities that are not touched are declared by the same modules as before. -/
theorem untouched_perm (hfollows : fp.Follows base merged)
    (hn : NamedFor fp.touched (allFetched t root))
    (hbase : base.entities.Perm ((allFetched t root).filterMap FetchedModule.entity?)) :
    (((allFetched u root).filter fun f => ¬ f.IsOf fp.touched).filterMap
      FetchedModule.entity?).Perm (merged.entities.filter fun e => e.ref ∉ fp.touched) := by
  have hmodules : ((allFetched u root).filter fun f => ¬ f.IsOf fp.touched).Perm
      ((allFetched t root).filter fun f => ¬ f.IsOf fp.touched) := by
    refine (List.perm_ext_iff_of_nodup ((nodup_allFetched u root).filter _)
      ((nodup_allFetched t root).filter _)).2 fun f => ?_
    rw [List.mem_filter, List.mem_filter, decide_eq_true_iff]
    exact and_congr_left fun hf => h.mem_allFetched_iff hf
  rw [hfollows.others]
  refine (hmodules.filterMap _).trans ?_
  rw [hn.filterMap_filter]
  exact (hbase.filter _).symm

section
variable (hr : ∀ e ∈ merged.entities, e.ref ∈ fp.affected → e.Readable)
  (hl : ∀ r ∈ fp.affected, (kindPath root r.kind).listed.isSome)
  (hi : ∀ r ∈ fp.affected, r.name ≠ "index")
include hr hl hi

/-- Every entity that is affected is declared by a module in its file. -/
theorem exists_fetched (hone : merged.countRef e.ref = 1) (he : e ∈ merged.entities)
    (ha : e.ref ∈ fp.affected) :
    ∃ f ∈ allFetched u root, f.IsOf fp.touched ∧ f.entity? = some e.canonical := by
  obtain ⟨e', hmem, href', g, hg, hpresent⟩ := h.present e.ref ha
  obtain rfl := Schema.eq_of_countRef hone hmem he href' rfl
  have hn := slash_notMem_of_isIdentifier (Entity.isIdentifier_of_generate hg)
  obtain ⟨hthere, hwithin⟩ := hpresent
  rw [entityPath_pieces root g.kind hn] at hwithin
  obtain ⟨dir, hd⟩ := Option.isSome_iff_exists.1 (hl e'.ref ha)
  refine ⟨.ofFile e'.ref.kind dir (moduleFile e'.ref.name) (moduleText merged.tables g).toUTF8,
    mem_allFetched.2 ((mem_fetched_iff (h.rewritten.passable h.passable)).2 ?_),
    ⟨e'.ref, List.mem_append_left _ ha, rfl, (FetchedModule.fileName_ofFile ..).symm⟩,
    entity?_ofFile hg (hr e' hmem ha) dir merged.tables⟩
  have hlisted : Tree.Listable root e'.ref.kind dir (moduleFile e'.ref.name) := by
    have hi := isModuleName_moduleFile.2 (hi e'.ref ha)
    rw [← Entity.ref_generate hg] at hd hi ⊢
    exact hwithin.listable hd hi
  exact ⟨dir, _, _, hd, hlisted, Entity.ref_generate hg ▸ hthere, rfl⟩

/-- Entities that are touched are declared by the modules that were written. -/
theorem touched_perm (hfollows : fp.Follows base merged) :
    (((allFetched u root).filter fun f => f.IsOf fp.touched).filterMap FetchedModule.entity?).Perm
      ((merged.entities.filter fun e => e.ref ∈ fp.touched).map Entity.canonical) := by
  have hdeclared : ∀ {f c}, f ∈ (allFetched u root).filter (fun f => f.IsOf fp.touched) →
      f.entity? = some c → f ∈ allFetched u root ∧ f.fileName = moduleFile c.ref.name ∧
        ∃ e ∈ merged.entities, e.ref ∈ fp.touched ∧ e.canonical = c := by
    intro f c hf hc
    rw [List.mem_filter, decide_eq_true_iff] at hf
    obtain ⟨e, hmem, ha, he, hname⟩ := h.exists_entity hr hf.1 hf.2
    obtain rfl := Option.some.inj (he.symm.trans hc)
    rw [Entity.ref_canonical]
    exact ⟨hf.1, hname.symm, e, hmem, List.mem_append_left _ ha, rfl⟩
  refine (List.perm_ext_iff_of_nodup ?_ ?_).2 fun c => ?_
  · refine List.nodup_iff_count_le_one.2 fun c =>
      count_filterMap_le_one ((nodup_allFetched u root).filter _) fun f hf f' hf' hc hc' => ?_
    obtain ⟨hf, hname, -⟩ := hdeclared hf hc
    obtain ⟨hf', hname', -⟩ := hdeclared hf' hc'
    refine eq_of_fileName (h.rewritten.passable h.passable) hf hf' ?_ (hname.trans hname'.symm)
    exact (FetchedModule.kind_of_entity? hc).symm.trans (FetchedModule.kind_of_entity? hc')
  · refine List.Nodup.of_map Entity.ref ?_
    rw [Entity.map_ref_canonical]
    exact hfollows.nodup_touched
  · rw [List.mem_filterMap, List.mem_map]
    constructor
    · rintro ⟨f, hf, hc⟩
      obtain ⟨-, -, e, he, ht, hcanonical⟩ := hdeclared hf hc
      exact ⟨e, List.mem_filter.2 ⟨he, decide_eq_true ht⟩, hcanonical⟩
    · rintro ⟨e, hmem, rfl⟩
      obtain ⟨he, ht⟩ := List.mem_filter.1 hmem
      have ht := of_decide_eq_true ht
      have ha : e.ref ∈ fp.affected := (List.mem_append.1 ht).resolve_right fun hd =>
        Schema.countRef_pos he (hfollows.removed _ hd)
      obtain ⟨f, hf, hof, hc⟩ := h.exists_fetched hr hl hi (hfollows.affected _ ha) he ha
      exact ⟨f, List.mem_filter.2 ⟨hf, decide_eq_true hof⟩, hc⟩

/-- **The modules of a project that was rebuilt declare the entities of the
    schema.** -/
theorem entities_perm (hfollows : fp.Follows base merged)
    (hn : NamedFor fp.touched (allFetched t root))
    (hbase : base.entities.Perm ((allFetched t root).filterMap FetchedModule.entity?)) :
    (((allFetched u root).filterMap FetchedModule.entity?).map Entity.canonical).Perm
      (merged.entities.map Entity.canonical) := by
  have hsplit : ∀ {α : Type} (p : α → Prop) [DecidablePred p] (as : List α),
      ((as.filter fun a => p a) ++ as.filter fun a => ¬ p a).Perm as := fun p _ as => by
    simpa using List.filter_append_perm (fun a => decide (p a)) as
  have htouched := (h.touched_perm hr hl hi hfollows).map Entity.canonical
  rw [listMap_listMap Entity.canonical_canonical] at htouched
  have hall := htouched.append ((h.untouched_perm hfollows hn hbase).map Entity.canonical)
  rw [← List.map_append, ← List.filterMap_append, ← List.map_append] at hall
  exact (((hsplit _ _).symm.filterMap _).map _).trans (hall.trans ((hsplit _ _).map _))

end

end Rebuilt

/-! ## Changes -/

section
variable {changes : List Change} {report : MaterializeReport}

theorem Plan.ofChanges_eq_ok {s : Schema} {plan : Plan} (h : ofChanges s changes = .ok plan) :
    ∃ merged, s.merge changes = .ok merged ∧
      plan.removed = inEntityOrder (Footprint.ofChanges changes).removed ∧
      (inEntityOrder (Footprint.ofChanges changes).affected).mapM merged.regenerate =
        .ok plan.entities ∧
      plan.tables = merged.tables := by
  obtain ⟨merged, hm, h⟩ := bind_eq_ok.1 h
  obtain ⟨entities, he, h⟩ := bind_eq_ok.1 h
  obtain rfl := Except.ok.inj h
  exact ⟨merged, mapError_eq_ok.1 hm, rfl, he, rfl⟩

/-- Changes are made in a project that can be read, according to a plan. -/
theorem materialize_eq_ok
    (h : (materialize root changes : StateM Tree (Except MaterializeError MaterializeReport)) t =
      (.ok report, u)) :
    (t.readProject root).errors = [] ∧
      ∃ plan, Plan.ofChanges (t.readProject root).schema changes = .ok plan ∧
        (plan.carryOut root : StateM Tree (Except MaterializeError MaterializeReport)) t =
          (.ok report, u) := by
  rw [materialize, Tree.run_bind, Tree.looks_readProject] at h
  dsimp only at h
  by_cases hs : (t.readProject root).success = true
  · rw [if_pos hs] at h
    cases hp : Plan.ofChanges (t.readProject root).schema changes with
    | error e =>
      rw [hp] at h
      cases congrArg Prod.fst h
    | ok plan =>
      rw [hp] at h
      exact ⟨List.isEmpty_iff.1 hs, plan, rfl, h⟩
  · rw [if_neg hs] at h
    cases congrArg Prod.fst h

/-- What makes a project fit to have changes made in it. -/
structure Amendable (root : Path) (changes : List Change) (t : Tree) : Prop where
  proper : ∀ c ∈ changes, c.Proper
  /-- A name with a slash leads to another file. -/
  unslashed : ∀ r ∈ (Footprint.ofChanges changes).removed, '/' ∉ r.name.toList
  /-- The module of such an entity is taken for an index. -/
  unindexed : ∀ r ∈ (Footprint.ofChanges changes).affected, r.name ≠ "index"
  /-- The directories can be listed, which those of `.//project` cannot. -/
  listed : ∀ r ∈ (Footprint.ofChanges changes).affected, (kindPath root r.kind).listed.isSome
  named : NamedFor (Footprint.ofChanges changes).touched (allFetched t root)
  readable : ∀ merged, (t.readProject root).schema.merge changes = .ok merged →
    ∀ e ∈ merged.entities, e.ref ∈ (Footprint.ofChanges changes).affected → e.Readable
  /-- An index alone makes a project only until it is removed. -/
  inhabited : (Footprint.ofChanges changes).affected ≠ [] ∨
    ∃ kind, t.isDirectory (kindPath root kind) = true

variable (hc : Amendable root changes t)
include hc

/-- The schema of a project and the one into which changes are merged. -/
theorem Amendable.follows {base merged : Schema} (hroot : t.Passable root.stem)
    (hbase : base.entities.Perm ((allFetched t root).filterMap FetchedModule.entity?))
    (hm : base.merge changes = .ok merged) :
    (Footprint.ofChanges changes).Follows base merged := by
  refine Footprint.follows_of_merge hc.proper (fun c hmem => ?_) hm
  exact countRef_le_one hroot hc.named (Footprint.mem_touched_ofChanges.2 ⟨c, hmem, rfl⟩) hbase

/-- A plan for the changes rebuilds the project. -/
theorem Amendable.rebuilt {base merged : Schema} {plan : Plan} (hroot : t.Passable root.stem)
    (hfollows : (Footprint.ofChanges changes).Follows base merged)
    (hremoved : plan.removed = inEntityOrder (Footprint.ofChanges changes).removed)
    (hentities : (inEntityOrder (Footprint.ofChanges changes).affected).mapM merged.regenerate =
      .ok plan.entities)
    (htables : plan.tables = merged.tables)
    (h : (plan.carryOut root : StateM Tree (Except MaterializeError MaterializeReport)) t =
      (.ok report, u)) :
    Rebuilt root (Footprint.ofChanges changes) merged t u := by
  have hgenerated : ∀ {r g}, merged.regenerate r = .ok g → g.ref = r := by
    intro r g hg
    obtain ⟨e, -, rfl, he⟩ := Schema.exists_of_regenerate hg
    exact Entity.ref_generate he
  have haffected := inEntityOrder_perm (Footprint.ofChanges changes).affected
  have hgone := hremoved ▸ inEntityOrder_perm (Footprint.ofChanges changes).removed
  have hrefs : plan.entities.map GeneratedEntity.ref =
      inEntityOrder (Footprint.ofChanges changes).affected :=
    (map_eq_of_mapM_eq_ok hentities fun r g hg => hgenerated hg).trans (List.map_id _)
  have hmem : ∀ {r}, r ∈ plan.entities.map GeneratedEntity.ref ↔
      r ∈ (Footprint.ofChanges changes).affected := by
    rw [hrefs]
    exact haffected.mem_iff
  obtain ⟨hrewritten, hnone, hpresent⟩ := Plan.carryOut_eq_ok
    (fun r hr => hc.unslashed r (hgone.mem_iff.1 hr))
    (fun g hg => by
      obtain ⟨r, -, hr⟩ := exists_of_mem_mapM_eq_ok hentities hg
      obtain ⟨e, -, -, he⟩ := Schema.exists_of_regenerate hr
      exact Entity.isIdentifier_of_generate he)
    (fun g hg => hc.unindexed g.ref (hmem.1 (List.mem_map_of_mem hg)))
    (hrefs ▸ haffected.nodup_iff.2 (Footprint.nodup_affected changes)) hroot h
  refine ⟨hroot, hrewritten.mono fun r hr => ?_, fun r hr hi => ?_, fun r hr => ?_⟩
  · rcases List.mem_append.1 hr with hr | hr
    · exact List.mem_append_right _ (hgone.mem_iff.1 hr)
    · exact List.mem_append_left _ (hmem.1 hr)
  · refine hnone r (hgone.mem_iff.2 hr) hi fun ha => ?_
    exact absurd ((hfollows.affected r (hmem.1 ha)).symm.trans (hfollows.removed r hr)) (by decide)
  · obtain ⟨g, hg, hregenerate⟩ := exists_of_mapM_eq_ok hentities (haffected.mem_iff.2 hr)
    obtain ⟨e, he, href, hgenerate⟩ := Schema.exists_of_regenerate hregenerate
    exact ⟨e, he, href, g, hgenerate, htables ▸ hpresent g hg⟩

/-- A project stays one. -/
theorem Amendable.isProject {merged : Schema} (hp : t.isProject root = true)
    (h : Rebuilt root (Footprint.ofChanges changes) merged t u) : u.isProject root = true := by
  have hroot := (Tree.passable_of_isProject hp).1
  rcases hc.inhabited with ha | ⟨kind, hk⟩
  · obtain ⟨r, hr⟩ := List.exists_mem_of_ne_nil _ ha
    obtain ⟨e, -, -, g, hg, hpresent⟩ := h.present r hr
    have hwithin := hpresent.within
    rw [entityPath_pieces root g.kind
      (slash_notMem_of_isIdentifier (Entity.isIdentifier_of_generate hg))] at hwithin
    have hk := hwithin.outer (enters_directory g.kind)
    exact isProject_of_directory hroot (Tree.isDirectory_kindPath hwithin.passable hk.fault)
  · obtain ⟨hfault, hpass⟩ := Tree.isDirectory_iff.1 hk
    exact isProject_of_directory hroot
      (Tree.isDirectory_iff.2 ⟨hfault, h.rewritten.passable hpass⟩)

/-- **A project in which changes were made is read as the schema that they are
    merged into.** -/
theorem materialize_reread {s s' : ReadResult} {v w : Tree}
    (hr : (readProject root : StateM Tree ReadResult) t = (s, v))
    (hm : (materialize root changes : StateM Tree (Except MaterializeError MaterializeReport)) v =
      (.ok report, u))
    (hr' : (readProject root : StateM Tree ReadResult) u = (s', w)) :
    ∃ merged, s.schema.merge changes = .ok merged ∧ s'.errors = [] ∧
      s'.schema.canonical.SameEntities merged.canonical := by
  rw [Tree.looks_readProject] at hr hr'
  obtain ⟨rfl, rfl⟩ := Prod.mk.inj hr
  obtain ⟨rfl, -⟩ := Prod.mk.inj hr'
  obtain ⟨herr, plan, hplan, hcarried⟩ := materialize_eq_ok hm
  obtain ⟨merged, hmerge, hremoved, hentities, htables⟩ := Plan.ofChanges_eq_ok hplan
  have hproject := isProject_of_readProject herr
  have hroot := (Tree.passable_of_isProject hproject).2
  obtain ⟨herrors, hschema⟩ := readProject_of_isProject hproject
  have hbase := hschema ▸ ReadResult.entities_ofModules root (allFetched t root)
  have hfollows := hc.follows hroot hbase hmerge
  have hrebuilt := hc.rebuilt hroot hfollows hremoved hentities htables hcarried
  obtain ⟨herrors', hschema'⟩ := readProject_of_isProject (hc.isProject hproject hrebuilt)
  have hreadable := hc.readable merged hmerge
  have hall := ReadResult.ofModules_errors.1 (herrors ▸ herr)
  refine ⟨merged, hmerge, ?_, Schema.sameEntities_of_perm ?_⟩
  · rw [herrors']
    exact ReadResult.ofModules_errors.2 (hrebuilt.isSome_entity? hreadable hall)
  · rw [hschema', Schema.entities_canonical, Schema.entities_canonical]
    refine ((ReadResult.entities_ofModules root _).map _).trans ?_
    exact hrebuilt.entities_perm hreadable hc.listed hc.unindexed hfollows hc.named hbase

end

/-- A project with an enum, a table, and a helper in a module of another name. -/
def datedTree : Tree where
  nodes := [("db", .directory [
    ("enums", .directory [("Role.ts",
      .file "export const Role = pgEnum('role', ['Admin'] as const);".toUTF8)]),
    ("helpers", .directory [("common.ts",
      .file "export const Dated = \x7b day: date('day') \x7d;".toUTF8)]),
    ("tables", .directory [("Logs.ts",
      .file "export const logs = pgTable('logs', \x7b id: serial('id') \x7d);".toUTF8)])])]

/-- The enum gets a value, and the table is removed. -/
def datedChanges : List Change := [
  .ofType .enumValueAdded ⟨.enum, "Role", some "guest"⟩ "Value 'guest' added to enum 'Role'"
    (.enumValue "guest" 1),
  .ofType .tableRemoved ⟨.table, "Logs", none⟩ "Table 'Logs' removed" (.table { name := "Logs" })]

theorem amendable_dated : Amendable (Path.ofString "db") datedChanges datedTree where
  proper := by
    simp only [datedChanges, List.forall_mem_cons]
    exact ⟨.ofType rfl fun _ h => Option.some.inj h,
      ⟨fun _ h => Option.some.inj h, fun h => nomatch h⟩, by simp⟩
  unslashed := by decide
  unindexed := by decide
  listed := by decide
  named := by decide +kernel
  readable merged _ e _ hr := by
    have hk : e.ref.kind = .enum := by
      rw [show (Footprint.ofChanges datedChanges).affected = [⟨.enum, "Role"⟩] by decide] at hr
      rw [List.mem_singleton.1 hr]
    cases e with
    | enum e => trivial
    | helper h => cases hk
    | table t => cases hk
  inhabited := .inl (by decide)

theorem materialize_reread_dated : ∃ s s' report u merged,
    (readProject (Path.ofString "db") : StateM Tree ReadResult) datedTree = (s, datedTree) ∧
    (materialize (Path.ofString "db") datedChanges :
      StateM Tree (Except MaterializeError MaterializeReport)) datedTree = (.ok report, u) ∧
    (readProject (Path.ofString "db") : StateM Tree ReadResult) u = (s', u) ∧
    s.schema.merge datedChanges = .ok merged ∧ s'.errors = [] ∧
    s'.schema.canonical.SameEntities merged.canonical := by
  have hok : ((materialize (Path.ofString "db") datedChanges :
      StateM Tree (Except MaterializeError MaterializeReport)) datedTree).1.isOk = true := by
    decide +kernel
  cases hm : (materialize (Path.ofString "db") datedChanges :
      StateM Tree (Except MaterializeError MaterializeReport)) datedTree with
  | mk result u =>
  rw [hm] at hok
  cases result with
  | error e => cases hok
  | ok report =>
    have hread := Tree.looks_readProject (Path.ofString "db")
    obtain ⟨merged, hmerge, herr, hsame⟩ :=
      materialize_reread amendable_dated (hread datedTree) hm (hread u)
    exact ⟨_, _, report, u, merged, hread datedTree, rfl, hread u, hmerge, herr, hsame⟩

end SchemaLoom
