/-
  What a reader finds of a project that was written.

  * `Found.mem_fetched`: the modules that are found are those that were written,
    unless their file is taken for an index or their place is a directory;
  * `Found.isProject`: a path that is not empty leads to a project once a module
    is written.
-/
import SchemaLoom.Proofs.Project.Indexed
import SchemaLoom.Proofs.Project.Reading

namespace SchemaLoom

variable {root dir : Path} {t u : Tree} {text : GeneratedEntity → String}
  {written : List GeneratedEntity} {g : GeneratedEntity} {kind : EntityKind}

theorem Path.pieces_cases (p : Path) : p.pieces = p.stem ∨ p.pieces = p.stem ++ [""] := by
  rw [stem]
  split
  next h =>
    obtain ⟨front, hf⟩ := List.getLast?_eq_some_iff.1 h
    exact .inr (by rw [hf, List.dropLast_concat])
  next => exact .inl rfl

/-- A path leads where it leads without a slash at its end. -/
theorem passable_pieces (h : t.Passable root.stem) : t.Passable root.pieces := by
  rcases root.pieces_cases with hp | hp
  · rwa [hp]
  · have hend := h.end
    rw [Path.locationOf_stem, Path.location, hp] at hend
    rw [hp]
    exact h.concat (fun he => absurd he (by decide)) hend

theorem Tree.isDirectory_kindPath (h : t.Passable (root.stem ++ [kind.directory]))
    (hf : (Path.mk (root.stem ++ [kind.directory])).fault? = none) :
    t.isDirectory (kindPath root kind) = true := by
  rw [kindPath_pieces]
  exact isDirectory_iff.2 ⟨hf, h⟩

/-- A path that leads to a directory is a project if that has an index, or a
    directory for some kind. -/
theorem isProject_iff : t.isProject root = true ↔ root.fault? = none ∧ t.Passable root.stem ∧
    (t.isFile (root.child indexName) = true ∨ ∃ kind, t.isDirectory (kindPath root kind) = true) := by
  have hany : (EntityKind.all.any fun kind => t.isDirectory (kindPath root kind)) = true ↔
      ∃ kind, t.isDirectory (kindPath root kind) = true :=
    List.any_eq_true.trans (exists_congr fun kind => and_iff_right kind.mem_all)
  constructor
  · intro h
    obtain ⟨hfault, hroot⟩ := Tree.passable_of_isProject h
    rw [Tree.isProject, Bool.and_eq_true, Bool.or_eq_true, hany] at h
    exact ⟨hfault, hroot, h.2⟩
  · rintro ⟨hfault, hroot, h⟩
    obtain ⟨nodes, hfind⟩ := Tree.find_of_passable (passable_pieces hroot) hfault
    have hthere : (t.isThere root).toOption = some true := by
      rw [Tree.isThere, Tree.kind, hfind]
      rfl
    rw [Tree.isProject, Bool.and_eq_true, Bool.or_eq_true, hany]
    exact ⟨decide_eq_true hthere, h⟩

/-- A directory for some kind of entities makes a project. -/
theorem isProject_of_directory (hroot : root.fault? = none)
    (hk : t.isDirectory (kindPath root kind) = true) : t.isProject root = true := by
  have hp := (Tree.isDirectory_iff.1 hk).2
  rw [kindPath_pieces] at hp
  exact isProject_iff.2 ⟨hroot, hp.front (List.prefix_append _ _), .inr ⟨kind, hk⟩⟩

/-- What the path of the project passes through are directories. -/
theorem directory_of_through (h : t.Passable root.stem) {l : Location} (hl : Through root l) :
    t.get? l = some .directory := by
  obtain ⟨front, hf, rfl⟩ := hl
  exact (passable_pieces h).directory front hf

/-- The tree `u` holds the modules that were written, and indexes. -/
structure Found (root : Path) (text : GeneratedEntity → String) (written : List GeneratedEntity)
    (u : Tree) : Prop where
  named : ∀ g ∈ written, Text.isIdentifier g.name = true
  /-- Files that are no index are modules. -/
  file : ∀ (kind : EntityKind) file bytes, file ≠ indexName →
    u.get? (placeOf root kind file) = some (.file bytes) →
      ∃ g ∈ written, g.kind = kind ∧ file = moduleFile g.name
  there : ∀ g ∈ written, g.name ≠ "index" → ¬ Through root (g.place root) →
    u.get? (g.place root) = some (.file (text g).toUTF8)
  within : ∀ g ∈ written, u.Within ⟨root.stem ++ [g.kind.directory] ++ [moduleFile g.name]⟩
    (root.stem ++ [g.kind.directory]) (moduleFile g.name)

theorem moduleFile_ne_indexName {name : String} (h : name ≠ "index") :
    moduleFile name ≠ indexName :=
  fun he => h (moduleFile_injective (he.trans indexName_eq))

theorem Holds.found (h : Holds root text written t) (hr : Reindexed root t u)
    (hn : ∀ g ∈ written, Text.isIdentifier g.name = true) : Found root text written u where
  named := hn
  file kind file bytes hi hf := by
    obtain ⟨g, hg, hp⟩ := h.file kind.directory [file] bytes ((hr.file kind file bytes hi).1 hf)
    obtain ⟨hk, hfile⟩ := placeOf_injective hp
    exact ⟨g, hg, hk.symm, hfile⟩
  there g hg hi hp := by
    refine (hr.file _ _ _ (moduleFile_ne_indexName hi)).2 ?_
    exact (h.there g hg).resolve_right fun ht => hp ht.1
  within g hg := by
    have hw := (h.within g hg).mono hr.directory
    rwa [entityPath_pieces root g.kind (slash_notMem_of_isIdentifier (hn g hg))] at hw

namespace Found

theorem passable (h : Found root text written u) (hg : g ∈ written) : u.Passable root.stem :=
  (h.within g hg).passable.front (List.prefix_append _ _)

/-- A place that the path passes through holds no file. -/
theorem not_through (h : Found root text written u) (hg : g ∈ written) {l : Location}
    {bytes : ByteArray} (hf : u.get? l = some (.file bytes)) : ¬ Through root l := by
  intro hl
  rw [directory_of_through (h.passable hg) hl] at hf
  cases hf

/-- **The files that are found are those of modules that were written.** -/
theorem mem_files (h : Found root text written u) (hd : (kindPath root kind).listed = some dir)
    {file : String} : file ∈ u.files root kind dir ↔ ∃ g ∈ written, g.kind = kind ∧
      file = moduleFile g.name ∧ g.name ≠ "index" ∧ ¬ Through root (g.place root) := by
  constructor
  · intro hm
    obtain ⟨hmodule, bytes, hf⟩ := Tree.file_of_mem_files hd hm
    have hi : file ≠ indexName := by
      rw [isModuleName, Bool.and_eq_true, bne_iff_ne] at hmodule
      exact hmodule.2
    obtain ⟨g, hg, rfl, rfl⟩ := h.file kind file bytes hi hf
    exact ⟨g, hg, rfl, rfl, isModuleName_moduleFile.1 hmodule, h.not_through hg hf⟩
  · rintro ⟨g, hg, rfl, rfl, hi, hp⟩
    exact Tree.mem_files_of_file hd (h.within g hg) (isModuleName_moduleFile.2 hi)
      (h.there g hg hi hp)

theorem ne_empty_of_named (h : Found root text written u) (hg : g ∈ written) : g.name ≠ "" := by
  intro he
  have hn := h.named g hg
  rw [he] at hn
  exact absurd hn (by decide)

/-- A module as it is fetched. -/
def fetchedAs (dir : Path) (text : GeneratedEntity → String) (g : GeneratedEntity) :
    FetchedModule :=
  ⟨g.kind, ⟨⟨dir.pieces ++ [moduleFile g.name]⟩, g.name⟩, .ok (text g)⟩

/-- The text of a module that is found is what was written. -/
theorem fetch (h : Found root text written u) (hd : (kindPath root g.kind).listed = some dir)
    (hg : g ∈ written) (hi : g.name ≠ "index") (hp : ¬ Through root (g.place root)) :
    FetchedModule.mk g.kind
        ⟨⟨dir.pieces ++ [moduleFile g.name]⟩, moduleStem (moduleFile g.name)⟩
        (u.text ⟨dir.pieces ++ [moduleFile g.name]⟩) =
      fetchedAs dir text g := by
  have hw := (h.within g hg).listed hd
  have hplace := Tree.locationOf_listed hd (enters_moduleFile g.name)
  have hthere := (congrArg u.get? hplace).trans (h.there g hg hi hp)
  rw [moduleStem_moduleFile (h.ne_empty_of_named hg), hw.text hthere, fetchedAs]

/-- **The modules that are found are modules that were written**, with what was
    written. -/
theorem mem_fetched (h : Found root text written u) {f : FetchedModule} :
    f ∈ u.fetched root kind ↔ ∃ dir, (kindPath root kind).listed = some dir ∧
      ∃ g ∈ written, g.kind = kind ∧ g.name ≠ "index" ∧ ¬ Through root (g.place root) ∧
        f = fetchedAs dir text g := by
  rw [Tree.fetched, Tree.modules]
  cases hd : (kindPath root kind).listed with
  | none => simp
  | some dir =>
    simp only [List.map_map, List.mem_map, Option.some.injEq, exists_eq_left', h.mem_files hd]
    constructor
    · rintro ⟨file, ⟨g, hg, rfl, rfl, hi, hp⟩, rfl⟩
      exact ⟨g, hg, rfl, hi, hp, h.fetch hd hg hi hp⟩
    · rintro ⟨g, hg, rfl, hi, hp, rfl⟩
      exact ⟨_, ⟨g, hg, rfl, rfl, hi, hp⟩, h.fetch hd hg hi hp⟩

/-- **The path of a module leads to a project.** -/
theorem isProject (h : Found root text written u) (hg : g ∈ written) (he : root.isEmpty = false) :
    u.isProject root = true := by
  have hk := (h.within g hg).outer (enters_directory g.kind)
  have hroot : root.fault? = none := by
    refine Path.fault?_eq_none_of_le hk.fault he (fun piece hm hne => ?_) ?_
    · rcases root.pieces_cases with hp | hp
      · exact List.mem_append_left _ (hp ▸ hm)
      · rw [hp] at hm
        rcases List.mem_append.1 hm with hm | hm
        · exact List.mem_append_left _ hm
        · exact absurd (List.mem_singleton.1 hm) hne
    · rw [Path.byteLength_eq, Path.byteLength_eq]
      rcases root.pieces_cases with hp | hp
      · rw [hp, slashedSize_append]
        omega
      · rw [hp, slashedSize_append, slashedSize_append, slashedSize_singleton,
          slashedSize_singleton, String.utf8ByteSize_empty]
        omega
  exact isProject_of_directory hroot
    (Tree.isDirectory_kindPath (h.within g hg).passable hk.fault)

end Found

end SchemaLoom
