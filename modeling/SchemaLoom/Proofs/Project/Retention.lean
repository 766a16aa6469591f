/-
  What is left of a schema after it is written and read back.

  * `Schema.writeProject_retained`: a project written where nothing was is read
    back with all its entities exactly if the schema is `Retained`;
  * `Schema.namesOf_readProject`: the names that are read are those of the
    modules that are found.
-/
import SchemaLoom.Proofs.Project.Found

namespace SchemaLoom

variable {s : Schema} {root : Path} {t u : Tree} {report : WriteReport}

/-- The entities of both schemas have the same names; those of the first are
    without repetition, and in the order of their files. -/
def Schema.SameNames (r s : Schema) : Prop :=
  ∀ kind, (r.namesOf kind).Perm (s.namesOf kind) ∧ (r.namesOf kind).Nodup ∧
    ((r.namesOf kind).map moduleFile).Pairwise (· ≤ ·)

/-- What keeps a schema whole when it is written under a path and read back. -/
structure Schema.Retained (s : Schema) (root : Path) : Prop where
  /-- Without entities there are no directories, so there is no project. -/
  inhabited : s.isEmpty = false
  named : root.isEmpty = false
  /-- The directories can be listed, which those of `.//project` cannot. -/
  listed : ∀ kind, s.namesOf kind ≠ [] → (kindPath root kind).listed.isSome
  /-- The module of such an entity is taken for an index. -/
  unindexed : ∀ kind, "index" ∉ s.namesOf kind
  legible : s.Legible
  /-- Where a module belongs, the path itself makes no directory. -/
  clear : ∀ kind, ∀ name ∈ s.namesOf kind, ¬ Through root (placeOf root kind (moduleFile name))

/-! ## The tree that is written -/

theorem nodup_places (hv : hasErrors s.validate = false) (hb : s.generateBatch.errors = []) :
    (s.generateBatch.entities.map (GeneratedEntity.place root)).Nodup := by
  have h := Schema.nodup_refs hv
  rw [← Schema.entities_refs hb] at h
  have hplace : GeneratedEntity.place root =
      (fun ref : EntityKind × String => placeOf root ref.1 (moduleFile ref.2)) ∘
        fun g => (g.kind, g.name) := rfl
  rw [hplace, ← List.map_map]
  refine h.map fun a b hab => ?_
  obtain ⟨hk, hf⟩ := placeOf_injective hab
  exact Prod.ext hk (moduleFile_injective hf)

theorem isIdentifier_of_entity (hv : hasErrors s.validate = false)
    (hb : s.generateBatch.errors = []) {g : GeneratedEntity} (hg : g ∈ s.generateBatch.entities) :
    Text.isIdentifier g.name = true :=
  isIdentifier_of_isBindingName
    (Schema.isBindingName_of_mem hv (Schema.mem_namesOf_of_entity hb hg))

theorem writeProject_run (s : Schema) (t : Tree) :
    (s.writeProject : StateM Tree WriteReport) t =
      let root := Path.ofString s.outputDir
      let failed : WriteReport := { errors := s.generateBatch.errors.map fun e =>
        ⟨entityPath root e.kind e.name, .notGenerated e.kind e.name e.fault⟩ }
      let modules := (writeEntities root s.generateBatch.entities s.tables
        (s.overwrite.getD false) : StateM Tree WriteReport) t
      let indexes := (writeIndexes root : StateM Tree WriteReport) modules.2
      (failed ++ modules.1 ++ indexes.1, indexes.2) := by
  rw [Schema.writeProject]
  dsimp only
  rw [Tree.run_bind, Tree.run_bind]
  rfl

section
variable (hv : hasErrors s.validate = false) (hb : s.generateBatch.errors = [])
  (hempty : Vacant (Path.ofString s.outputDir) t)
  (hw : (s.writeProject : StateM Tree WriteReport) t = (report, u))
include hv hb hempty hw

/-- **A project that is written without a fault can be found.** -/
theorem found_of_writeProject (he : report.errors = []) :
    Found (Path.ofString s.outputDir) (moduleText s.tables) s.generateBatch.entities u := by
  rw [writeProject_run] at hw
  obtain ⟨hreport, rfl⟩ := Prod.mk.inj hw
  rw [← hreport, errors_append, errors_append, List.append_eq_nil_iff, List.append_eq_nil_iff] at he
  have hn := fun g hg => isIdentifier_of_entity hv hb (g := g) hg
  have hholds := hempty.holds.writeEntities hn (nodup_places hv hb) rfl he.1.2
  exact hholds.found (reindexed_writeIndexes he.2) hn

omit hv hb in
/-- Without entities nothing is written. -/
theorem vacant_of_writeProject (hs : s.isEmpty = true) : Vacant (Path.ofString s.outputDir) u := by
  rw [Schema.isEmpty, Bool.and_eq_true, Bool.and_eq_true, List.isEmpty_iff, List.isEmpty_iff,
    List.isEmpty_iff] at hs
  have hnone : s.generateBatch.entities = [] := by
    refine List.eq_nil_iff_forall_not_mem.2 fun g hg => ?_
    rw [Schema.mem_entities, hs.1.1, hs.1.2, hs.2] at hg
    simp at hg
  rw [writeProject_run, hnone] at hw
  obtain ⟨-, rfl⟩ := Prod.mk.inj hw
  exact hempty.writeIndexes

end

/-! ## The names that are read -/

/-- All modules of a project. -/
def allFetched (u : Tree) (root : Path) : List FetchedModule :=
  EntityKind.all.flatMap (u.fetched root)

theorem mem_allFetched {f : FetchedModule} :
    f ∈ allFetched u root ↔ f ∈ u.fetched root f.kind := by
  rw [allFetched, List.mem_flatMap]
  constructor
  · rintro ⟨kind, -, hf⟩
    obtain ⟨file, -, rfl⟩ := List.mem_map.1 hf
    exact hf
  · exact fun h => ⟨f.kind, f.kind.mem_all, h⟩

/-- The modules of one kind. -/
theorem filter_allFetched (u : Tree) (root : Path) (kind : EntityKind) :
    (allFetched u root).filter (fun f => f.kind = kind) = u.fetched root kind := by
  have hkind : ∀ other, (u.fetched root other).filter (fun f => f.kind = kind) =
      if other = kind then u.fetched root other else [] := by
    intro other
    rw [Tree.fetched, List.filter_map]
    by_cases ho : other = kind <;> simp [ho, Function.comp_def]
  rw [allFetched, List.filter_flatMap]
  simp only [hkind, EntityKind.all, List.flatMap_cons, List.flatMap_nil]
  cases kind <;> simp

theorem stems_allFetched (u : Tree) (root : Path) (kind : EntityKind) :
    ReadResult.stems (allFetched u root) kind = (u.modules root kind).map ModuleFile.stem := by
  rw [ReadResult.stems, filter_allFetched, Tree.fetched, List.map_map]
  rfl

section
variable {text : GeneratedEntity → String} {written : List GeneratedEntity}
  (h : Found root text written u)
include h

/-- Modules have the names that are found. -/
theorem Found.mem_stems {kind : EntityKind} {name : String} :
    name ∈ (u.modules root kind).map ModuleFile.stem ↔ (kindPath root kind).listed.isSome ∧
      ∃ g ∈ written, g.kind = kind ∧ g.name = name ∧ name ≠ "index" ∧
        ¬ Through root (placeOf root kind (moduleFile name)) := by
  rw [Tree.modules]
  cases hd : (kindPath root kind).listed with
  | none => simp
  | some dir =>
    simp only [List.map_map, List.mem_map, h.mem_files hd, Option.isSome_some, true_and,
      Function.comp_apply]
    constructor
    · rintro ⟨file, ⟨g, hg, rfl, rfl, hi, hp⟩, rfl⟩
      rw [moduleStem_moduleFile (h.ne_empty_of_named hg)]
      exact ⟨g, hg, rfl, rfl, hi, hp⟩
    · rintro ⟨g, hg, rfl, rfl, hi, hp⟩
      exact ⟨_, ⟨g, hg, rfl, rfl, hi, hp⟩, moduleStem_moduleFile (h.ne_empty_of_named hg)⟩

/-- The files of the names that are found are listed in order, each once. -/
theorem Found.files_stems (kind : EntityKind) :
    (((u.modules root kind).map ModuleFile.stem).map moduleFile).Nodup ∧
      (((u.modules root kind).map ModuleFile.stem).map moduleFile).Pairwise (· ≤ ·) := by
  rw [Tree.modules]
  cases hd : (kindPath root kind).listed with
  | none => exact ⟨List.nodup_nil, List.Pairwise.nil⟩
  | some dir =>
    have hfiles : (((u.files root kind dir).map fun name =>
        (⟨⟨dir.pieces ++ [name]⟩, moduleStem name⟩ : ModuleFile)).map ModuleFile.stem).map
          moduleFile = u.files root kind dir := by
      rw [List.map_map, List.map_map]
      refine (List.map_congr_left fun file hf => ?_).trans (List.map_id _)
      obtain ⟨g, hg, -, rfl, -⟩ := (h.mem_files hd).1 hf
      exact congrArg moduleFile (moduleStem_moduleFile (h.ne_empty_of_named hg))
    rw [hfiles]
    exact ⟨Tree.files_nodup, Tree.files_sorted⟩

end

/-! ## What is read -/

theorem readProject_of_isProject (h : u.isProject root = true) :
    (u.readProject root).errors = (ReadResult.ofModules root (allFetched u root)).errors ∧
      (u.readProject root).schema = (ReadResult.ofModules root (allFetched u root)).schema := by
  rw [Tree.readProject, if_pos h]
  exact ⟨rfl, rfl⟩

theorem isProject_of_readProject (h : (u.readProject root).errors = []) :
    u.isProject root = true := by
  rw [Tree.readProject] at h
  split at h
  · assumption
  · cases h

/-- An empty path leads to no project. -/
theorem isEmpty_of_isProject (h : u.isProject root = true) : root.isEmpty = false := by
  rw [Bool.eq_false_iff]
  intro he
  have hnul : ¬ (root.pieces.any fun piece => piece.toList.contains '\x00') = true := by
    have hp : root.pieces = [] ∨ root.pieces = [""] := by simpa [Path.isEmpty] using he
    rcases hp with hp | hp <;> rw [hp] <;> decide
  have hfault : root.fault? = some .noSuchFile := by rw [Path.fault?, if_neg hnul, if_pos he]
  have hfind : u.find root = .error .noSuchFile := by rw [Tree.find, hfault]
  rw [Tree.isProject, Tree.isThere, Tree.kind, hfind] at h
  cases h

namespace Schema

theorem exists_mem_namesOf (h : s.isEmpty = false) : ∃ kind name, name ∈ s.namesOf kind := by
  by_contra hnone
  have hall : ∀ kind, s.namesOf kind = [] := fun kind =>
    List.eq_nil_iff_forall_not_mem.2 fun name hn => hnone ⟨kind, name, hn⟩
  have henums := List.map_eq_nil_iff.1 (hall .enum)
  have hhelpers := List.map_eq_nil_iff.1 (hall .helper)
  have htables := List.map_eq_nil_iff.1 (hall .table)
  rw [isEmpty, henums, hhelpers, htables] at h
  cases h

section
variable (hv : hasErrors s.validate = false) (hb : s.generateBatch.errors = [])
  (hf : s.CallsFunctions)
  (hfound : Found root (moduleText s.tables) s.generateBatch.entities u)
include hv hf hfound

/-- The modules that are found can be read, or are told. -/
theorem declared_or_unreadable {f : FetchedModule} (h : f ∈ allFetched u root) :
    f.Declared ∨ f.Unreadable := by
  obtain ⟨dir, -, g, hg, -, -, -, rfl⟩ := hfound.mem_fetched.1 (mem_allFetched.1 h)
  exact (declares_or_refused hv hf hg _).imp (fun hd => ⟨_, rfl, hd⟩) fun hr => ⟨_, rfl, hr⟩

/-- What is read without a fault are the names that are found. -/
theorem namesOf_readProject (h : (u.readProject root).errors = []) (kind : EntityKind) :
    (u.readProject root).schema.namesOf kind = (u.modules root kind).map ModuleFile.stem := by
  obtain ⟨herr, hschema⟩ := readProject_of_isProject (isProject_of_readProject h)
  rw [herr] at h
  have hall : ∀ f ∈ allFetched u root, f.Declared := fun f hm =>
    (declared_or_unreadable hv hf hfound hm).resolve_right fun hr =>
      ReadResult.ofModules_unreadable root hm hr h
  rw [hschema, (ReadResult.ofModules_declared root hall).2, stems_allFetched]

include hb

/-- What is retained is read back. -/
theorem sameNames_of_retained (h : s.Retained root) :
    (u.readProject root).errors = [] ∧ (u.readProject root).schema.SameNames s := by
  obtain ⟨kind, name, hname⟩ := exists_mem_namesOf h.inhabited
  obtain ⟨g, hg, -⟩ := exists_entity hb hname
  have hproject := hfound.isProject hg h.named
  have hall : ∀ f ∈ allFetched u root, f.Declared := by
    intro f hm
    obtain ⟨dir, -, g, hg, -, -, -, rfl⟩ := hfound.mem_fetched.1 (mem_allFetched.1 hm)
    exact ⟨_, rfl, declares_entity hv hf h.legible hg _⟩
  have herr : (u.readProject root).errors = [] :=
    (readProject_of_isProject hproject).1.trans (ReadResult.ofModules_declared root hall).1
  refine ⟨herr, fun kind => ?_⟩
  obtain ⟨hnodup, hsorted⟩ := hfound.files_stems kind
  have hnodup := hnodup.of_map
  rw [namesOf_readProject hv hf hfound herr kind]
  refine ⟨?_, hnodup, hsorted⟩
  rw [List.perm_ext_iff_of_nodup hnodup (nodup_namesOf hv kind)]
  intro name
  rw [hfound.mem_stems]
  constructor
  · rintro ⟨-, g, hg, rfl, rfl, -, -⟩
    exact mem_namesOf_of_entity hb hg
  · intro hn
    obtain ⟨g, hg, hk, hname⟩ := exists_entity hb hn
    refine ⟨h.listed kind (List.ne_nil_of_mem hn), g, hg, hk, hname, ?_, h.clear kind name hn⟩
    rintro rfl
    exact h.unindexed kind hn

/-- What is read back is retained. -/
theorem retained_of_sameNames (hs : s.isEmpty = false) (herr : (u.readProject root).errors = [])
    (hnames : (u.readProject root).schema.SameNames s) : s.Retained root := by
  have hproject := isProject_of_readProject herr
  have hmem : ∀ kind, ∀ name ∈ s.namesOf kind, (kindPath root kind).listed.isSome ∧
      ∃ g ∈ s.generateBatch.entities, g.kind = kind ∧ g.name = name ∧ name ≠ "index" ∧
        ¬ Through root (placeOf root kind (moduleFile name)) := by
    intro kind name hn
    have hm := (hnames kind).1.mem_iff.2 hn
    rw [namesOf_readProject hv hf hfound herr kind] at hm
    exact hfound.mem_stems.1 hm
  refine ⟨hs, isEmpty_of_isProject hproject, fun kind hk => ?_, fun kind hi => ?_, ?_,
    fun kind name hn => ?_⟩
  · obtain ⟨name, hn⟩ := List.exists_mem_of_ne_nil _ hk
    exact (hmem kind name hn).1
  · obtain ⟨-, g, -, -, -, hne, -⟩ := hmem kind "index" hi
    exact hne rfl
  · by_contra hl
    obtain ⟨g, hg, hrefused⟩ := refused_entity hv hf hb hl
    obtain ⟨hlisted, -, -, -, -, hi, hp⟩ := hmem g.kind g.name (mem_namesOf_of_entity hb hg)
    obtain ⟨dir, hd⟩ := Option.isSome_iff_exists.1 hlisted
    have hm := hfound.mem_fetched.2 ⟨dir, hd, g, hg, rfl, hi, hp, rfl⟩
    rw [(readProject_of_isProject hproject).1] at herr
    exact ReadResult.ofModules_unreadable root (mem_allFetched.2 hm) ⟨_, rfl, hrefused _⟩ herr
  · obtain ⟨-, g, -, -, -, -, hp⟩ := hmem kind name hn
    exact hp

end

/-- **A project that is written where nothing was is read back with all its
    entities exactly if the schema is retained.** -/
theorem writeProject_retained {r : ReadResult} {v : Tree} (hv : hasErrors s.validate = false)
    (hb : s.generateBatch.errors = []) (hf : s.CallsFunctions)
    (hempty : Vacant (Path.ofString s.outputDir) t)
    (hw : (s.writeProject : StateM Tree WriteReport) t = (report, u)) (he : report.errors = [])
    (hr : (readProject (Path.ofString s.outputDir) : StateM Tree ReadResult) u = (r, v)) :
    r.errors = [] ∧ r.schema.SameNames s ↔ s.Retained (Path.ofString s.outputDir) := by
  rw [Tree.looks_readProject] at hr
  obtain ⟨rfl, -⟩ := Prod.mk.inj hr
  have hfound := found_of_writeProject hv hb hempty hw he
  constructor
  · rintro ⟨herr, hnames⟩
    refine retained_of_sameNames hv hb hf hfound ?_ herr hnames
    rw [Bool.eq_false_iff]
    intro hs
    have hproject := isProject_of_readProject herr
    rw [(vacant_of_writeProject hempty hw hs).isProject] at hproject
    cases hproject
  · exact sameNames_of_retained hv hb hf hfound

end Schema

/-- Roles, a helper and the users that have them. -/
def rolesSchema : Schema where
  outputDir := "db"
  enums := [⟨"Role", ["admin", "team_lead"]⟩]
  helpers := [⟨"Timestamps", [
    { name := "created", typeName := some "date", options := { default := some (.call "now") } }]⟩]
  tables := [{
    name := "Users"
    columns := [
      { name := "id", typeName := some "serial", options := { primaryKey := true } },
      { name := "role", options := { enumName := some "Role" } }]
    helperReferences := ["Timestamps"] }]

/-- The same with an enum more, whose module is taken for the index of the
    enums. -/
def indexedSchema : Schema :=
  { rolesSchema with enums := rolesSchema.enums ++ [⟨"index", ["low", "high"]⟩] }

theorem writeProject_retained_roles :
    (∃ report u r v, (rolesSchema.writeProject : StateM Tree WriteReport) .empty = (report, u) ∧
      report.errors = [] ∧
      (readProject (Path.ofString "db") : StateM Tree ReadResult) u = (r, v) ∧
      r.errors = [] ∧ r.schema.SameNames rolesSchema) ∧
    ∃ report u r v, (indexedSchema.writeProject : StateM Tree WriteReport) .empty = (report, u) ∧
      report.errors = [] ∧
      (readProject (Path.ofString "db") : StateM Tree ReadResult) u = (r, v) ∧
      ¬ (r.errors = [] ∧ r.schema.SameNames indexedSchema) := by
  have hlocation : (Path.ofString "db").location = ["db"] := by decide
  have hvacant : Vacant (Path.ofString "db") .empty := fun name rest => by rw [hlocation]; rfl
  have hcalls : rolesSchema.CallsFunctions := by
    simp only [Schema.CallsFunctions, Schema.columns, rolesSchema, List.flatMap_cons,
      List.flatMap_nil, List.append_nil, List.forall_mem_append, List.forall_mem_cons]
    refine ⟨⟨fun f hf => ?_, by simp⟩, fun f hf => ?_, fun f hf => ?_, by simp⟩ <;> cases hf
    decide
  have hlegible : rolesSchema.Legible := by
    simp only [Schema.Legible, Schema.columns, rolesSchema, List.flatMap_cons, List.flatMap_nil,
      List.append_nil, List.forall_mem_append, List.forall_mem_cons]
    refine ⟨⟨?_, by simp⟩, ?_, ?_, by simp⟩ <;> unfold Column.Legible <;> decide
  have hroles : ((rolesSchema.writeProject : StateM Tree WriteReport) .empty).1.errors = [] :=
    List.isEmpty_iff.1 (by decide +kernel)
  have hindexed : ((indexedSchema.writeProject : StateM Tree WriteReport) .empty).1.errors = [] :=
    List.isEmpty_iff.1 (by decide +kernel)
  constructor
  · cases hw : (rolesSchema.writeProject : StateM Tree WriteReport) .empty with
    | mk report u =>
    cases hr : (readProject (Path.ofString "db") : StateM Tree ReadResult) u with
    | mk r v =>
    rw [hw] at hroles
    have h := Schema.writeProject_retained (s := rolesSchema) (by decide +kernel)
      (by decide +kernel) hcalls hvacant hw hroles hr
    refine ⟨report, u, r, v, rfl, hroles, hr, h.2 ⟨rfl, ?_, fun kind _ => ?_, fun kind => ?_,
      hlegible, fun kind name _ => ?_⟩⟩
    · decide
    · cases kind <;> decide
    · cases kind <;> decide
    · exact not_through_of_notMem (by decide) _ _
  · cases hw : (indexedSchema.writeProject : StateM Tree WriteReport) .empty with
    | mk report u =>
    cases hr : (readProject (Path.ofString "db") : StateM Tree ReadResult) u with
    | mk r v =>
    rw [hw] at hindexed
    have h := Schema.writeProject_retained (s := indexedSchema) (by decide +kernel)
      (by decide +kernel) hcalls hvacant hw hindexed hr
    refine ⟨report, u, r, v, rfl, hindexed, hr, fun hread => ?_⟩
    exact (h.1 hread).unindexed .enum (by decide)

end SchemaLoom
