/-
  What each module contributes to the reading of a project.

  Modules are read one at a time (`ReadResult.add_eq`), so each has an outcome of
  its own: an entity, or an error that names it.

  * `ReadResult.ofModules_tells`: what is read are the outcomes, in order;
  * `ReadResult.foldl_addKind_eq`: a kind that cannot be listed is told in its
    place;
  * `Tree.Edited.allFetched_cases`: a file that holds something else changes its own
    module, and no other;
  * `readProject_isolated`: both together, for a project.
-/
import SchemaLoom.Proofs.Project.Materialized

namespace SchemaLoom

variable {root dir : Path} {t u v : Tree} {l : Location} {kind : EntityKind} {name : String}
  {f g : FetchedModule} {found : List FetchedModule} {r : ReadResult}

/-! ## One module -/

namespace FetchedModule

/-- What becomes of a module that is read: its entity, or why there is none. -/
def outcome (f : FetchedModule) : Except ReadFault Entity :=
  match f.text with
  | .error e => .error (.unreadable e)
  | .ok text => (Entity.read f.kind f.file.stem text).mapError .malformed

/-- The error that names a module, if it has no entity. -/
def error? (f : FetchedModule) : Option ReadError :=
  match f.outcome with
  | .ok _ => none
  | .error fault => some ⟨some f.file.path, fault⟩

/-- Where the file of a module is. -/
def location (f : FetchedModule) : Location := locationOf f.file.path.pieces

theorem entity?_eq_outcome (f : FetchedModule) : f.entity? = f.outcome.toOption := by
  rw [entity?, outcome]
  cases f.text with
  | error e => rfl
  | ok text =>
    dsimp only [Except.toOption, Option.bind]
    cases Entity.read f.kind f.file.stem text <;> rfl

/-- A module is read as an entity or told as an error, and not both. -/
theorem entity_or_error (f : FetchedModule) :
    (∃ e, f.outcome = .ok e ∧ f.entity? = some e ∧ f.error? = none) ∨
      ∃ fault, f.outcome = .error fault ∧ f.entity? = none ∧
        f.error? = some ⟨some f.file.path, fault⟩ := by
  rw [entity?_eq_outcome, error?]
  cases f.outcome with
  | ok e => exact .inl ⟨e, rfl, rfl, rfl⟩
  | error fault => exact .inr ⟨fault, rfl, rfl, rfl⟩

end FetchedModule

/-! ## All modules -/

/-- The result has an entity or an error for each module, in their order, and
    nothing else. -/
structure ReadResult.Tells (r : ReadResult) (found : List FetchedModule) : Prop where
  entities : r.schema.entities = found.filterMap FetchedModule.entity?
  errors : r.errors = found.filterMap FetchedModule.error?
  totalFiles : r.totalFiles = found.length

/-- Every module is counted once, as an entity or as an error. -/
theorem ReadResult.Tells.total (h : r.Tells found) :
    r.schema.entities.length + r.errors.length = r.totalFiles := by
  rw [h.entities, h.errors, h.totalFiles]
  clear h
  induction found with
  | nil => rfl
  | cons f found ih =>
    rcases f.entity_or_error with ⟨e, -, he, hn⟩ | ⟨fault, -, hn, he⟩
    · rw [List.filterMap_cons_some he, List.filterMap_cons_none hn, List.length_cons,
        List.length_cons]
      omega
    · rw [List.filterMap_cons_none hn, List.filterMap_cons_some he, List.length_cons,
        List.length_cons]
      omega

/-- All is read if there are no errors: if each module has an entity. -/
theorem ReadResult.Tells.success (h : r.Tells found) :
    (r.success = true ↔ r.errors = []) ∧
      (r.success = true ↔ ∀ f ∈ found, ∃ e, f.outcome = .ok e) := by
  have hs : r.success = true ↔ r.errors = [] := List.isEmpty_iff
  refine ⟨hs, hs.trans ?_⟩
  rw [h.errors, List.filterMap_eq_nil_iff]
  refine forall₂_congr fun f _ => ?_
  rcases f.entity_or_error with ⟨e, ho, -, hn⟩ | ⟨fault, ho, -, he⟩
  · simp [ho, hn]
  · simp [ho, he]

namespace Schema

/-- The entities of a schema are grouped by their kinds. -/
theorem entities_grouped (s : Schema) :
    s.entities =
      EntityKind.all.flatMap fun kind => s.entities.filter fun e => e.ref.kind = kind := by
  simp [entities, EntityKind.all, List.filter_append, List.filter_map, Function.comp_def]

/-- An entity more is behind the others of its kind. -/
theorem filter_addEntity (s : Schema) (e : Entity) (kind : EntityKind) :
    (s.addEntity e).entities.filter (fun e => e.ref.kind = kind) =
      s.entities.filter (fun e => e.ref.kind = kind) ++ [e].filter fun e => e.ref.kind = kind := by
  cases e <;> cases kind <;>
    simp [addEntity, entities, List.filter_append, List.filter_map, Function.comp_def]

theorem filter_foldl_addEntity (s : Schema) (es : List Entity) (kind : EntityKind) :
    (es.foldl addEntity s).entities.filter (fun e => e.ref.kind = kind) =
      s.entities.filter (fun e => e.ref.kind = kind) ++ es.filter fun e => e.ref.kind = kind := by
  induction es generalizing s with
  | nil => rw [List.foldl_nil, List.filter_nil, List.append_nil]
  | cons e es ih =>
    rw [List.foldl_cons, ih, filter_addEntity, List.append_assoc, ← List.filter_append,
      List.singleton_append]

end Schema

namespace ReadResult

/-- Reading one module more adds its outcome. -/
theorem add_eq (r : ReadResult) (f : FetchedModule) : r.add f =
    { r with
      schema := f.entity?.toList.foldl Schema.addEntity r.schema
      errors := r.errors ++ f.error?.toList
      totalFiles := r.totalFiles + 1 } := by
  rw [FetchedModule.entity?_eq_outcome, FetchedModule.error?, FetchedModule.outcome, add]
  cases f.text with
  | error e => rfl
  | ok text =>
    dsimp only
    rw [Schema.addModule_eq]
    cases Entity.read f.kind f.file.stem text with
    | error e => rfl
    | ok e =>
      simp [Except.map, Except.mapError, Except.toOption]

/-- Reading modules adds their outcomes. -/
theorem foldl_add_eq (r : ReadResult) (fetched : List FetchedModule) : fetched.foldl add r =
    { r with
      schema := (fetched.filterMap FetchedModule.entity?).foldl Schema.addEntity r.schema
      errors := r.errors ++ fetched.filterMap FetchedModule.error?
      totalFiles := r.totalFiles + fetched.length } := by
  induction fetched generalizing r with
  | nil => simp
  | cons f fetched ih =>
    rw [List.foldl_cons, ih, add_eq]
    rcases f.entity_or_error with ⟨e, -, he, hn⟩ | ⟨fault, -, hn, he⟩
    · simp [he, hn, Nat.add_assoc, Nat.add_comm 1]
    · simp [he, hn, Nat.add_assoc, Nat.add_comm 1]

/-- The modules of a kind, if they could be listed. -/
def listedModules (k : EntityKind × Except ListingError (List FetchedModule)) :
    List FetchedModule := k.2.toOption.getD []

/-- What is told of a kind: the errors of its modules, or why they could not be
    listed. -/
def kindErrors (root : Path) :
    EntityKind × Except ListingError (List FetchedModule) → List ReadError
  | (_, .ok fetched) => fetched.filterMap FetchedModule.error?
  | (kind, .error e) => [⟨some (kindPath root kind), .unlisted e⟩]

/-- **A kind that cannot be listed is told in its place**, and hides nothing of the
    others. -/
theorem foldl_addKind_eq (root : Path) (r : ReadResult)
    (kinds : List (EntityKind × Except ListingError (List FetchedModule))) :
    kinds.foldl (addKind root) r =
      { r with
        schema := ((kinds.flatMap listedModules).filterMap FetchedModule.entity?).foldl
          Schema.addEntity r.schema
        errors := r.errors ++ kinds.flatMap (kindErrors root)
        totalFiles := r.totalFiles + (kinds.flatMap listedModules).length } := by
  induction kinds generalizing r with
  | nil => simp
  | cons k kinds ih =>
    obtain ⟨kind, listed⟩ := k
    rw [List.foldl_cons, ih]
    cases listed with
    | ok fetched =>
      simp [addKind, listedModules, kindErrors, Except.toOption, foldl_add_eq, Nat.add_assoc]
    | error e => simp [addKind, listedModules, kindErrors, Except.toOption]

/-- **Modules that are grouped by kinds are told in their order.** -/
theorem ofModules_tells (root : Path)
    (hg : found = EntityKind.all.flatMap fun kind => found.filter fun f => f.kind = kind) :
    (ofModules root found).Tells found := by
  have hkind : ∀ kind, (found.filterMap FetchedModule.entity?).filter (fun e => e.ref.kind = kind) =
      (found.filter fun f => f.kind = kind).filterMap FetchedModule.entity? := by
    intro kind
    rw [List.filterMap_filter, List.filter_filterMap]
    refine List.filterMap_congr fun f _ => ?_
    cases he : f.entity? with
    | none => simp
    | some e =>
      have hk := FetchedModule.kind_of_entity? he
      by_cases h : f.kind = kind
      · simp [h, hk, Option.filter]
      · simp [h, hk, Option.filter]
  rw [ofModules, foldl_add_eq]
  refine ⟨?_, List.nil_append _, Nat.zero_add _⟩
  calc (((found.filterMap FetchedModule.entity?).foldl Schema.addEntity
        (start root).schema).entities)
      = EntityKind.all.flatMap fun kind =>
          (found.filterMap FetchedModule.entity?).filter fun e => e.ref.kind = kind := by
        rw [Schema.entities_grouped]
        refine List.flatMap_congr fun kind _ => ?_
        rw [Schema.filter_foldl_addEntity]
        exact List.nil_append _
    _ = EntityKind.all.flatMap fun kind =>
          (found.filter fun f => f.kind = kind).filterMap FetchedModule.entity? :=
        List.flatMap_congr fun kind _ => hkind kind
    _ = found.filterMap FetchedModule.entity? := by
        rw [← List.filterMap_flatMap, ← hg]

end ReadResult

/-! ## Modules in order -/

/-- Modules are in the order of their kinds, and by their files within a kind. -/
def FetchedModule.Before (f g : FetchedModule) : Prop :=
  EntityKind.all.idxOf f.kind < EntityKind.all.idxOf g.kind ∨
    f.kind = g.kind ∧ f.fileName < g.fileName

/-- These are the modules of a project in their order: the files of modules that
    are in the directory of a kind. -/
structure Discovered (root : Path) (t : Tree) (found : List FetchedModule) : Prop where
  ordered : found.Pairwise FetchedModule.Before
  mem : ∀ f, f ∈ found ↔ ∃ dir name bytes, (kindPath root f.kind).listed = some dir ∧
    Tree.Listable root f.kind dir name ∧
    t.get? (placeOf root f.kind name) = some (.file bytes) ∧ f = .ofFile f.kind dir name bytes

theorem Tree.fetched_sorted :
    ((t.fetched root kind).map FetchedModule.fileName).Pairwise (· < ·) := by
  rw [fetched, modules]
  cases (kindPath root kind).listed with
  | none => exact .nil
  | some dir =>
    have hnames : ((t.files root kind dir).map fun name =>
        (FetchedModule.mk kind ⟨⟨dir.pieces ++ [name]⟩, moduleStem name⟩
          (t.text ⟨dir.pieces ++ [name]⟩)).fileName) = t.files root kind dir := by
      refine (List.map_congr_left fun name _ => ?_).trans (List.map_id _)
      simp [FetchedModule.fileName, List.getLastD_eq_getLast?]
    rw [List.map_map, List.map_map]
    dsimp only [Function.comp_def]
    rw [hnames]
    refine (files_sorted.and files_nodup).imp fun {a b} hab => ?_
    obtain ⟨hle, hne⟩ := hab
    exact String.not_le.1 fun hba => hne (String.le_antisymm hle hba)

/-- The modules that are read are those of the project. -/
theorem discovered_allFetched (hroot : t.Passable root.stem) :
    Discovered root t (allFetched t root) := by
  constructor
  · rw [allFetched, List.pairwise_flatMap]
    constructor
    · intro kind _
      refine (List.pairwise_map.1 Tree.fetched_sorted).imp_of_mem fun {f g} hf hg hlt => ?_
      obtain ⟨_, -, rfl⟩ := List.mem_map.1 hf
      obtain ⟨_, -, rfl⟩ := List.mem_map.1 hg
      exact .inr ⟨rfl, hlt⟩
    · have hkinds : EntityKind.all.Pairwise fun a b =>
          EntityKind.all.idxOf a < EntityKind.all.idxOf b := by decide
      refine hkinds.imp fun {a b} hab f hf g hg => ?_
      obtain ⟨_, -, rfl⟩ := List.mem_map.1 hf
      obtain ⟨_, -, rfl⟩ := List.mem_map.1 hg
      exact .inl hab
  · intro f
    rw [mem_allFetched, mem_fetched_iff hroot]

/-! ## One file -/

namespace Tree

/-- The trees differ at most in what one file holds. -/
structure Edited (l : Location) (t u : Tree) : Prop where
  before : ∃ bytes, t.get? l = some (.file bytes)
  after : ∃ bytes, u.get? l = some (.file bytes)
  others : ∀ k, k ≠ l → u.get? k = t.get? k

/-- A file that is there and is written holds something else. -/
theorem edited_of_write {p : Path} {pre : List String} {bytes : ByteArray}
    (hp : p.pieces = pre ++ [name]) (hn : Path.enters name = true)
    (hf : ∃ bytes, t.get? (locationOf p.pieces) = some (.file bytes))
    (h : t.write p bytes = .ok u) : Edited (locationOf p.pieces) t u := by
  obtain ⟨-, -, hu⟩ := write_eq_ok hp hn h
  refine ⟨hf, ⟨bytes, ?_⟩, fun k hk => ?_⟩
  · rw [hu, if_pos rfl]
  · rw [hu, if_neg hk]

namespace Edited

theorem symm (h : Edited l t u) : Edited l u t :=
  ⟨h.after, h.before, fun k hk => (h.others k hk).symm⟩

theorem directory (h : Edited l t u) (k : Location) (hk : t.get? k = some .directory) :
    u.get? k = some .directory := by
  rw [h.others, hk]
  rintro rfl
  obtain ⟨bytes, hb⟩ := h.before
  rw [hb] at hk
  cases hk

theorem file (h : Edited l t u) {k : Location} (hk : ∃ bytes, t.get? k = some (.file bytes)) :
    ∃ bytes, u.get? k = some (.file bytes) := by
  by_cases hl : k = l
  · exact hl ▸ h.after
  · rwa [h.others k hl]

theorem isFile (h : Edited l t u) {p : Path} {pre : List String} (hp : p.pieces = pre ++ [name])
    (hn : Path.enters name = true) (hf : t.isFile p = true) : u.isFile p = true := by
  obtain ⟨k, bytes, hfind⟩ := isFile_iff.1 hf
  have hw := (within_of_find hp hn hfind).mono h.directory
  obtain ⟨-, rfl, hnode, -⟩ := find_eq_ok hfind
  obtain ⟨bytes', hb⟩ := h.file ⟨bytes, by rw [get?, hnode]; rfl⟩
  obtain ⟨node, hnode', he⟩ := Option.map_eq_some_iff.1 hb
  cases node with
  | directory nodes => cases he
  | file contents => exact isFile_iff.2 ⟨_, contents, hw.find hnode'⟩

/-- What a project is does not depend on what its files hold. -/
theorem isProject (h : Edited l t u) (hp : t.isProject root = true) : u.isProject root = true := by
  obtain ⟨hfault, hroot, hwhere⟩ := isProject_iff.1 hp
  refine isProject_iff.2 ⟨hfault, hroot.mono h.directory, ?_⟩
  rcases hwhere with hindex | ⟨kind, hkind⟩
  · exact .inl (h.isFile (by rw [rootIndex_pieces]) (by decide) hindex)
  · obtain ⟨hf, hp⟩ := isDirectory_iff.1 hkind
    exact .inr ⟨kind, isDirectory_iff.2 ⟨hf, hp.mono h.directory⟩⟩

theorem files (h : Edited l t u) (hroot : t.Passable root.stem)
    (hd : (kindPath root kind).listed = some dir) :
    u.files root kind dir = t.files root kind dir := by
  have hperm : (u.files root kind dir).Perm (t.files root kind dir) := by
    rw [List.perm_ext_iff_of_nodup files_nodup files_nodup]
    intro name
    rw [mem_files_iff (hroot.mono h.directory) hd, mem_files_iff hroot hd]
    exact and_congr_right fun _ => ⟨h.symm.file, h.file⟩
  exact hperm.eq_of_pairwise (fun _ _ _ _ hab hba => String.le_antisymm hab hba) files_sorted
    files_sorted

/-- The same modules are found. -/
theorem modules (h : Edited l t u) (hroot : t.Passable root.stem) (kind : EntityKind) :
    u.modules root kind = t.modules root kind := by
  rw [Tree.modules, Tree.modules]
  cases hd : (kindPath root kind).listed with
  | none => rfl
  | some dir =>
    dsimp only
    rw [h.files hroot hd]

/-- The modules that are found are fetched anew. -/
theorem refetched (h : Edited l t u) (hroot : t.Passable root.stem) : allFetched u root =
    (allFetched t root).map fun f => { f with text := u.text f.file.path } := by
  rw [allFetched, allFetched, List.map_flatMap]
  refine List.flatMap_congr fun kind _ => ?_
  rw [fetched, fetched, h.modules hroot, List.map_map]
  rfl

/-- A module in another file holds what it held. -/
theorem text (h : Edited l t u) (hroot : t.Passable root.stem)
    (hf : f ∈ allFetched t root) (hl : f.location ≠ l) :
    u.text f.file.path = f.text := by
  have htext : t.text f.file.path = f.text := by
    obtain ⟨file, -, he⟩ := List.mem_map.1 (mem_allFetched.1 hf)
    rw [← he]
  obtain ⟨dir, name, bytes, hd, hlist, hb, he⟩ := (mem_fetched_iff hroot).1 (mem_allFetched.1 hf)
  have hpath : f.file.path = ⟨dir.pieces ++ [name]⟩ := by rw [he]; rfl
  have hw := hlist.within hd (passable_kindPath hroot (by rw [hb]; nofun))
  rw [← locationOf_listed hd hw.enters] at hb
  rw [FetchedModule.location, hpath] at hl
  have hb' := h.others _ hl
  rw [hb] at hb'
  rw [← htext, hpath, Tree.text, Tree.text, hw.contents hb, (hw.mono h.directory).contents hb']

end Edited

end Tree

/-- Modules in one place are the same. -/
theorem eq_of_location (hroot : t.Passable root.stem) (hf : f ∈ allFetched t root)
    (hg : g ∈ allFetched t root) (h : f.location = g.location) : f = g := by
  have hplace : ∀ f ∈ allFetched t root, f.location = placeOf root f.kind f.fileName := by
    intro f hf
    obtain ⟨dir, name, bytes, hd, hlist, -, he⟩ :=
      (mem_fetched_iff hroot).1 (mem_allFetched.1 hf)
    have hname : f.fileName = name := by rw [he, FetchedModule.fileName_ofFile]
    have hpath : f.file.path = ⟨dir.pieces ++ [name]⟩ := by rw [he]; rfl
    rw [FetchedModule.location, hname, hpath]
    exact Tree.locationOf_listed hd (Tree.enters_of_isModuleName hlist.named)
  rw [hplace f hf, hplace g hg] at h
  obtain ⟨hk, hn⟩ := placeOf_injective h
  exact eq_of_fileName hroot hf hg hk hn

/-- **A file that holds something else changes its own module**, if it is one, and
    no other. -/
theorem Tree.Edited.allFetched_cases (h : t.Edited l u) (hroot : t.Passable root.stem) :
    allFetched u root = allFetched t root ∨
      ∃ before f g after, allFetched t root = before ++ f :: after ∧
        allFetched u root = before ++ g :: after ∧
        f.location = l ∧ g.kind = f.kind ∧ g.file = f.file := by
  have hkept : ∀ fs ⊆ allFetched t root, (∀ f ∈ fs, f.location ≠ l) →
      fs.map (fun f => { f with text := u.text f.file.path }) = fs := by
    intro fs hfs hl
    refine (List.map_congr_left fun f hf => ?_).trans (List.map_id _)
    rw [h.text hroot (hfs hf) (hl f hf)]
    rfl
  rw [h.refetched hroot]
  by_cases hall : ∀ f ∈ allFetched t root, f.location ≠ l
  · exact .inl (hkept _ (List.Subset.refl _) hall)
  · obtain ⟨f, hf⟩ := not_forall.1 hall
    rw [Classical.not_imp, not_not] at hf
    obtain ⟨hf, hfl⟩ := hf
    obtain ⟨before, after, hfound⟩ := List.append_of_mem hf
    have hnodup := nodup_allFetched t root
    rw [hfound, List.nodup_middle, List.nodup_cons, List.mem_append, not_or] at hnodup
    have hothers : ∀ f' ∈ allFetched t root, f' ≠ f → f'.location ≠ l := fun f' hf' hne hl =>
      hne (eq_of_location hroot hf' hf (hl.trans hfl.symm))
    refine .inr ⟨before, f, { f with text := u.text f.file.path }, after, hfound, ?_, hfl, rfl,
      rfl⟩
    rw [hfound] at hkept hothers
    rw [hfound, List.map_append, List.map_cons,
      hkept before (List.subset_append_left _ _) fun f' hf' =>
        hothers f' (List.mem_append_left _ hf') fun he => hnodup.1.1 (he ▸ hf'),
      hkept after (fun _ hm => List.mem_append_right _ (List.mem_cons_of_mem _ hm)) fun f' hf' =>
        hothers f' (List.mem_append_right _ (List.mem_cons_of_mem _ hf')) fun he =>
          hnodup.1.2 (he ▸ hf')]

/-! ## Projects -/

theorem readProject_tells (h : t.isProject root = true) :
    (t.readProject root).Tells (allFetched t root) := by
  have hgrouped : allFetched t root =
      EntityKind.all.flatMap fun kind => (allFetched t root).filter fun f => f.kind = kind :=
    List.flatMap_congr fun kind _ => (filter_allFetched t root kind).symm
  obtain ⟨hentities, herrors, htotal⟩ := ReadResult.ofModules_tells root hgrouped
  rw [Tree.readProject, if_pos h]
  exact ⟨hentities, herrors, htotal⟩

/-- **Reading a project isolates its files.**  Each module that is found is told in
    its place, as an entity or as an error that names it, and all is read if there
    are no errors.  When a file is edited, what is told of all other modules stays
    as it is. -/
theorem readProject_isolated (hp : (isProject root : StateM Tree Bool) t = (true, t))
    (hr : (readProject root : StateM Tree ReadResult) t = (r, v)) :
    v = t ∧ ∃ found, Discovered root t found ∧ r.Tells found ∧
      (∀ f ∈ found,
        (∃ e, f.outcome = .ok e ∧ f.entity? = some e ∧ f.error? = none) ∨
        ∃ fault, f.outcome = .error fault ∧ f.entity? = none ∧
          f.error? = some ⟨some f.file.path, fault⟩) ∧
      r.schema.entities.length + r.errors.length = r.totalFiles ∧
      (r.success = true ↔ r.errors = []) ∧
      (r.success = true ↔ ∀ f ∈ found, ∃ e, f.outcome = .ok e) ∧
      ∀ l u, t.Edited l u → ∃ r', (readProject root : StateM Tree ReadResult) u = (r', u) ∧
        (r' = r ∨ ∃ before f g after, found = before ++ f :: after ∧
          Discovered root u (before ++ g :: after) ∧ r'.Tells (before ++ g :: after) ∧
          f.location = l ∧ g.kind = f.kind ∧ g.file = f.file) := by
  rw [Tree.looks_isProject] at hp
  rw [Tree.looks_readProject] at hr
  obtain ⟨hp, -⟩ := Prod.mk.inj hp
  obtain ⟨rfl, rfl⟩ := Prod.mk.inj hr
  have hroot := (Tree.passable_of_isProject hp).2
  have htells := readProject_tells hp
  obtain ⟨herrors, houtcomes⟩ := htells.success
  refine ⟨rfl, _, discovered_allFetched hroot, htells, fun f _ => f.entity_or_error, htells.total,
    herrors, houtcomes, fun l u h => ⟨u.readProject root, Tree.looks_readProject root u, ?_⟩⟩
  have hpu := h.isProject hp
  rcases h.allFetched_cases hroot with hsame | ⟨before, f, g, after, hfound, hu, hf, hk, hfile⟩
  · refine .inl ?_
    show u.readProject root = t.readProject root
    rw [Tree.readProject, Tree.readProject, if_pos hp, if_pos hpu]
    exact congrArg (fun found => { ReadResult.ofModules root found with lastModified := none })
      hsame
  · have hdiscovered := discovered_allFetched (hroot.mono h.directory)
    have htellsu := readProject_tells hpu
    rw [hu] at hdiscovered htellsu
    exact .inr ⟨before, f, g, after, hfound, hdiscovered, htellsu, hf, hk, hfile⟩

/-- The module of the enum is spoiled: the helper and the table are read as before. -/
theorem readProject_isolated_dated :
    let db := Path.ofString "db"
    ∃ r u r' before f g after,
      (isProject db : StateM Tree Bool) datedTree = (true, datedTree) ∧
      (readProject db : StateM Tree ReadResult) datedTree = (r, datedTree) ∧
      (FileSystem.write (Path.ofString "db/enums/Role.ts") "export const Role".toUTF8 :
        StateM Tree (Except FileError Unit)) datedTree = (.ok (), u) ∧
      (readProject db : StateM Tree ReadResult) u = (r', u) ∧
      r.Tells (before ++ f :: after) ∧ r'.Tells (before ++ g :: after) ∧
      f.location = ["db", "enums", "Role.ts"] ∧ g.file = f.file ∧
      r.errors.length = 0 ∧ r'.errors.length = 1 ∧ r'.schema.entities.length = 2 := by
  intro db
  have hproject : (isProject db : StateM Tree Bool) datedTree = (true, datedTree) := by
    rw [Tree.looks_isProject]
    exact congrArg (·, datedTree) (by decide +kernel)
  have hwritten : (datedTree.write (Path.ofString "db/enums/Role.ts")
      "export const Role".toUTF8).isOk = true := by decide +kernel
  cases hw : datedTree.write (Path.ofString "db/enums/Role.ts") "export const Role".toUTF8 with
  | error e =>
    rw [hw] at hwritten
    cases hwritten
  | ok u =>
    have hpieces : (Path.ofString "db/enums/Role.ts").pieces = ["db", "enums"] ++ ["Role.ts"] := by
      decide
    have hedited := Tree.edited_of_write hpieces (by decide) ⟨_, rfl⟩ hw
    have hread := Tree.looks_readProject db datedTree
    obtain ⟨-, found, -, htells, -, -, -, -, hisolated⟩ := readProject_isolated hproject hread
    obtain ⟨r', hread', hcases⟩ := hisolated _ u hedited
    have hrun : (FileSystem.write (Path.ofString "db/enums/Role.ts") "export const Role".toUTF8 :
        StateM Tree (Except FileError Unit)) datedTree = (.ok (), u) := Tree.change_ok hw
    have hthen : ((do
        let _ ← (FileSystem.write (Path.ofString "db/enums/Role.ts") "export const Role".toUTF8 :
          StateM Tree (Except FileError Unit))
        readProject db) datedTree).1 = r' := by
      rw [Tree.run_bind, hrun, hread']
    have hbefore : (datedTree.readProject db).errors.length = 0 := by decide +kernel
    have hafter : r'.errors.length = 1 ∧ r'.schema.entities.length = 2 := by
      rw [← hthen]
      decide +kernel
    rcases hcases with rfl | ⟨before, f, g, after, rfl, -, htells', hf, -, hfile⟩
    · rw [hbefore] at hafter
      cases hafter.1
    · exact ⟨_, u, r', before, f, g, after, hproject, hread, hrun, hread', htells, htells',
        hf.trans (by decide), hfile, hbefore, hafter⟩

end SchemaLoom
