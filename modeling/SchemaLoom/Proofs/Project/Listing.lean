/-
  What a reader of a tree finds of a project.

  * `Tree.looks_modules`, `Tree.looks_readProject`: looking for modules and
    reading a project are functions of the tree;
  * `Tree.file_of_mem_files`, `Tree.mem_files_of_file`: a module is found exactly
    if it is a file in the directory of its kind;
  * `Tree.mem_files_iff`: the same by its path alone, where the directories can
    be listed.
-/
import SchemaLoom.Project.Reading
import SchemaLoom.Proofs.Files.Looking
import SchemaLoom.Proofs.Project.Layout

namespace SchemaLoom

/-! ## Shorter paths -/

/-- The bytes of names, each with a slash after it. -/
def slashedSize (pieces : List String) : Nat :=
  pieces.foldl (fun n piece => n + piece.utf8ByteSize + 1) 0

theorem foldl_size (pieces : List String) (n : Nat) :
    pieces.foldl (fun n piece => n + piece.utf8ByteSize + 1) n = n + slashedSize pieces := by
  induction pieces generalizing n with
  | nil => rfl
  | cons piece pieces ih =>
    rw [slashedSize, List.foldl_cons, List.foldl_cons, ih, ih]
    omega

theorem slashedSize_singleton (piece : String) : slashedSize [piece] = piece.utf8ByteSize + 1 :=
  congrArg (· + 1) (Nat.zero_add _)

theorem slashedSize_append (ps qs : List String) :
    slashedSize (ps ++ qs) = slashedSize ps + slashedSize qs := by
  rw [slashedSize, List.foldl_append, foldl_size qs]
  rfl

theorem Path.byteLength_eq (p : Path) : p.byteLength = slashedSize p.pieces - 1 := rfl

/-- A path is fine if it is no longer than one that is, and has no other
    names. -/
theorem Path.fault?_eq_none_of_le {p q : Path} (hq : q.fault? = none) (he : p.isEmpty = false)
    (hm : ∀ piece ∈ p.pieces, piece ≠ "" → piece ∈ q.pieces) (hl : p.byteLength ≤ q.byteLength) :
    p.fault? = none := by
  rw [fault?] at hq ⊢
  split at hq
  · cases hq
  next hnul =>
    have hp : ¬ (p.pieces.any fun piece => piece.toList.contains '\x00') = true := by
      intro hany
      obtain ⟨piece, hmem, hz⟩ := List.any_eq_true.1 hany
      refine hnul (List.any_eq_true.2 ⟨piece, hm piece hmem ?_, hz⟩)
      rintro rfl
      exact absurd hz (by decide)
    split at hq
    · cases hq
    split at hq
    · cases hq
    next hlong => rw [if_neg hp, he, if_neg (by decide), if_neg (by omega)]

theorem nodup_eraseDups (names : List String) : names.eraseDups.Nodup := by
  induction hn : names.length using Nat.strongRecOn generalizing names with
  | ind n ih =>
    cases names with
    | nil => exact List.nodup_nil
    | cons name names =>
      rw [List.eraseDups_cons, List.nodup_cons, List.mem_eraseDups]
      refine ⟨by simp, ih _ ?_ _ rfl⟩
      have := List.length_filter_le (fun b => !b == name) names
      rw [← hn, List.length_cons]
      omega

namespace Tree

variable {t : Tree} {root dir : Path} {kind : EntityKind} {name : String} {bytes : ByteArray}

/-! ## Directories -/

/-- A directory that something is looked up in can be looked up itself. -/
theorem Within.outer {pieces : Path} {front : List String} {last : String}
    (h : t.Within pieces (front ++ [last]) name) (he : Path.enters last = true) :
    t.Within ⟨front ++ [last]⟩ front last := by
  refine ⟨rfl, he, ?_, h.passable.short last (by simp) he,
    h.passable.front (List.prefix_append _ _)⟩
  refine Path.fault?_eq_none_of_le h.fault ?_ (fun piece hm _ => ?_) ?_
  · have hne := enters_ne_empty he
    cases front <;> simp [Path.isEmpty, hne]
  · rw [h.pieces]
    exact List.mem_append_left _ hm
  · rw [Path.byteLength_eq, Path.byteLength_eq, h.pieces, slashedSize_append _ [name]]
    exact Nat.sub_le_sub_right (Nat.le_add_right _ _) 1

/-- A path that passes through directories leads to one. -/
theorem find_of_passable {p : Path} (h : t.Passable p.pieces) (hf : p.fault? = none) :
    ∃ nodes, t.find p = .ok (locationOf p.pieces, .directory nodes) := by
  obtain ⟨way, hw⟩ := exists_walk h
  obtain ⟨htr, hl⟩ := walk_traced hw
  obtain ⟨nodes, hn⟩ := get?_eq_directory h.end
  have hr : t.reached way = .directory nodes := Option.some.inj (htr.get?_root.symm.trans (hl ▸ hn))
  exact ⟨nodes, by rw [find, hf, hw, ← hl, ← hr]; rfl⟩

/-- The names in a directory are those of its entries. -/
theorem mem_entries {p : Path} {l : Location} {nodes : Nodes}
    (h : t.find p = .ok (l, .directory nodes)) (hn : t.get? (l ++ [name]) ≠ none) :
    name ∈ t.entries p := by
  obtain ⟨-, -, hl, -⟩ := find_eq_ok h
  rw [get?_append_singleton hl] at hn
  rw [entries_of_find h, List.mem_eraseDups, List.mem_map]
  by_contra hnone
  refine hn ?_
  rw [Option.map_eq_none_iff, List.lookup_eq_none_iff]
  intro n hmem
  rw [bne_iff_ne]
  rintro rfl
  exact hnone ⟨n, hmem, rfl⟩

/-- A path leads to a directory if it passes through directories only. -/
theorem isDirectory_iff {p : Path} :
    t.isDirectory p = true ↔ p.fault? = none ∧ t.Passable p.pieces := by
  rw [isDirectory, Tree.kind, decide_eq_true_iff]
  constructor
  · intro h
    cases hf : t.find p with
    | error e =>
      rw [hf] at h
      cases h
    | ok found =>
      obtain ⟨l, node⟩ := found
      rw [hf] at h
      obtain ⟨hfault, hl, hn, way, hw⟩ := find_eq_ok hf
      refine ⟨hfault, passable_of_walk hw ?_⟩
      cases node with
      | file bytes => cases h
      | directory nodes =>
        rw [← hl, get?, hn]
        rfl
  · rintro ⟨hfault, hp⟩
    obtain ⟨nodes, hf⟩ := find_of_passable hp hfault
    rw [hf]
    rfl

/-! ## Modules -/

/-- The files of the modules of a kind, in their order, under the path that
    their directory is listed by. -/
def files (t : Tree) (root : Path) (kind : EntityKind) (dir : Path) : List String :=
  (((t.entries (kindPath root kind)).filter isModuleName).mergeSort).filter fun name =>
    t.isFile ⟨dir.pieces ++ [name]⟩

/-- The modules of a kind. -/
def modules (t : Tree) (root : Path) (kind : EntityKind) : List ModuleFile :=
  match (kindPath root kind).listed with
  | none => []
  | some dir => (t.files root kind dir).map fun name => ⟨⟨dir.pieces ++ [name]⟩, moduleStem name⟩

theorem looks_modules (root : Path) (kind : EntityKind) :
    Looks (SchemaLoom.modules root kind) fun t => .ok (t.modules root kind) := by
  intro t
  dsimp only [SchemaLoom.modules, modules]
  cases (kindPath root kind).listed with
  | none => rfl
  | some dir =>
    dsimp only
    rw [run_bind, looks_isDirectory]
    dsimp only
    by_cases hdir : t.isDirectory (kindPath root kind) = true
    · rw [if_pos hdir, run_bind, looks_names]
      dsimp only
      rw [names_of_isDirectory hdir]
      dsimp only
      have hfile : ∀ file : ModuleFile,
          Looks (FileSystem.isFile file.path) fun t => t.isFile file.path :=
        fun file => looks_isFile file.path
      rw [run_bind, Looks.filterM hfile]
      dsimp only
      rw [List.filter_map]
      rfl
    · rw [if_neg hdir, files, entries_eq_nil hdir, List.filter_nil, List.mergeSort_nil]
      rfl

theorem files_nodup : (t.files root kind dir).Nodup := by
  refine .filter _ ((List.mergeSort_perm _ _).nodup_iff.2 (.filter _ ?_))
  by_cases hdir : t.isDirectory (kindPath root kind) = true
  · obtain ⟨l, nodes, hf⟩ := find_of_isDirectory hdir
    rw [entries_of_find hf]
    exact nodup_eraseDups _
  · rw [entries_eq_nil hdir]
    exact List.nodup_nil

theorem files_sorted : (t.files root kind dir).Pairwise (· ≤ ·) := by
  have h : ((t.entries (kindPath root kind)).filter isModuleName).mergeSort.Pairwise
      fun a b => decide (a ≤ b) = true := by
    refine List.pairwise_mergeSort (fun a b c hab hbc => ?_) (fun a b => ?_) _
    · rw [decide_eq_true_iff] at hab hbc ⊢
      exact String.le_trans hab hbc
    · rw [Bool.or_eq_true, decide_eq_true_iff, decide_eq_true_iff]
      exact String.le_total a b
  exact .filter _ (h.imp fun hab => of_decide_eq_true hab)

/-- The location of what is listed is where it is. -/
theorem locationOf_listed (hd : (kindPath root kind).listed = some dir)
    (hn : Path.enters name = true) :
    locationOf (dir.pieces ++ [name]) = placeOf root kind name := by
  have ht := thins_listed hd
  rw [kindPath_pieces] at ht
  rw [locationOf_of_enters hn, ht.locationOf, locationOf_kindPath, placeOf, List.append_assoc]
  rfl

theorem enters_of_isModuleName (h : isModuleName name = true) : Path.enters name = true := by
  rw [isModuleName, Bool.and_eq_true] at h
  obtain ⟨⟨front, hf⟩, -⟩ := And.imp_left List.isSuffixOf_iff_suffix.1 h
  have hname : name = moduleFile (String.ofList front) :=
    String.toList_injective (by rw [toList_moduleFile, String.toList_ofList, ← hf]; rfl)
  exact hname ▸ enters_moduleFile _

/-- What is listed can be reached under the path that it is listed by. -/
theorem Within.listed (h : t.Within ⟨root.stem ++ [kind.directory] ++ [name]⟩
      (root.stem ++ [kind.directory]) name) (hd : (kindPath root kind).listed = some dir) :
    t.Within ⟨dir.pieces ++ [name]⟩ dir.pieces name := by
  have ht := thins_listed hd
  rw [kindPath_pieces] at ht
  exact ⟨rfl, h.enters, ht.fault (enters_ne_empty h.enters) h.fault, h.short,
    ht.passable h.passable⟩

theorem isFile_iff {p : Path} : t.isFile p = true ↔ ∃ l bytes, t.find p = .ok (l, .file bytes) := by
  rw [isFile, Tree.kind, decide_eq_true_iff]
  cases t.find p with
  | error e => simp [Except.map, Except.toOption]
  | ok found =>
    obtain ⟨l, node⟩ := found
    cases node with
    | file bytes => exact ⟨fun _ => ⟨l, bytes, rfl⟩, fun _ => rfl⟩
    | directory nodes => simp [Except.map, Except.toOption, Node.kind]

/-- A module that is found is a file in the directory of its kind. -/
theorem file_of_mem_files (hd : (kindPath root kind).listed = some dir)
    (h : name ∈ t.files root kind dir) :
    isModuleName name = true ∧ ∃ bytes, t.get? (placeOf root kind name) = some (.file bytes) := by
  rw [files, List.mem_filter, List.mem_mergeSort, List.mem_filter] at h
  obtain ⟨⟨-, hm⟩, hfile⟩ := h
  obtain ⟨l, bytes, hf⟩ := isFile_iff.1 hfile
  obtain ⟨-, hl, hn, -⟩ := find_eq_ok hf
  refine ⟨hm, bytes, ?_⟩
  rw [← locationOf_listed hd (enters_of_isModuleName hm), ← hl, get?, hn]
  rfl

/-- What is in an entry of a directory can be there only if the entry is one. -/
theorem get?_parent {l : Location} (h : t.get? (l ++ [name]) ≠ none) :
    t.get? l = some .directory := by
  rw [get?, ne_eq, Option.map_eq_none_iff, Node.get?_append] at h
  rw [get?]
  cases hn : t.root.get? l with
  | none => exact absurd (by rw [hn]; rfl) h
  | some node =>
    cases node with
    | directory nodes => rfl
    | file bytes => exact absurd (by rw [hn]; rfl) h

/-- Where a file is, its path passes through directories. -/
theorem passable_kindPath (hroot : t.Passable root.stem)
    (h : t.get? (placeOf root kind name) ≠ none) : t.Passable (root.stem ++ [kind.directory]) := by
  refine hroot.concat (fun _ => ?_) ?_
  · cases kind <;> decide
  · have hplace : t.get? (root.location ++ [kind.directory] ++ [name]) ≠ none := by
      rwa [List.append_assoc, List.singleton_append]
    rw [locationOf_kindPath]
    exact get?_parent hplace

/-- A file of a name is found as a module wherever it is one: its path is not at
    fault. -/
structure Listable (root : Path) (kind : EntityKind) (dir : Path) (name : String) : Prop where
  named : isModuleName name = true
  directory : (kindPath root kind).fault? = none
  path : (Path.mk (dir.pieces ++ [name])).fault? = none
  short : name.utf8ByteSize ≤ nameLimit

theorem Listable.within (h : Listable root kind dir name)
    (hd : (kindPath root kind).listed = some dir)
    (hk : t.Passable (root.stem ++ [kind.directory])) :
    t.Within ⟨dir.pieces ++ [name]⟩ dir.pieces name := by
  have ht := thins_listed hd
  rw [kindPath_pieces] at ht
  exact ⟨rfl, enters_of_isModuleName h.named, h.path, h.short, ht.passable hk⟩

/-- **Modules are found by their places alone.** -/
theorem mem_files_iff (hroot : t.Passable root.stem) (hd : (kindPath root kind).listed = some dir) :
    name ∈ t.files root kind dir ↔ Listable root kind dir name ∧
      ∃ bytes, t.get? (placeOf root kind name) = some (.file bytes) := by
  constructor
  · intro h
    obtain ⟨hm, hfile⟩ := file_of_mem_files hd h
    rw [files, List.mem_filter, List.mem_mergeSort, List.mem_filter] at h
    obtain ⟨⟨hnames, -⟩, hlisted⟩ := h
    obtain ⟨l, bytes, hf⟩ := isFile_iff.1 hlisted
    have hw := within_of_find rfl (enters_of_isModuleName hm) hf
    refine ⟨⟨hm, ?_, hw.fault, hw.short⟩, hfile⟩
    obtain ⟨l, nodes, hdir⟩ := find_of_isDirectory (isDirectory_of_mem_entries hnames)
    exact (find_eq_ok hdir).1
  · rintro ⟨hl, bytes, hf⟩
    have hk := passable_kindPath hroot (by rw [hf]; nofun)
    have he := enters_of_isModuleName hl.named
    rw [files, List.mem_filter, List.mem_mergeSort, List.mem_filter]
    refine ⟨⟨?_, hl.named⟩, isFile_iff.2 ?_⟩
    · have hpieces : (kindPath root kind).pieces = root.stem ++ [kind.directory] := by
        rw [kindPath_pieces]
      obtain ⟨nodes, hfind⟩ := find_of_passable (hpieces ▸ hk) hl.directory
      refine mem_entries hfind ?_
      rw [hpieces, ← locationOf_of_enters he, locationOf_placeOf root kind he, hf]
      nofun
    · have hw := hl.within hd hk
      rw [← locationOf_listed hd he, get?, Option.map_eq_some_iff] at hf
      obtain ⟨node, hn, he⟩ := hf
      cases node with
      | directory nodes => cases he
      | file contents => exact ⟨_, contents, hw.find hn⟩

theorem Within.listable (h : t.Within ⟨root.stem ++ [kind.directory] ++ [name]⟩
      (root.stem ++ [kind.directory]) name) (hd : (kindPath root kind).listed = some dir)
    (hm : isModuleName name = true) : Listable root kind dir name := by
  have hk := h.outer (enters_directory kind)
  rw [← kindPath_pieces] at hk
  exact ⟨hm, hk.fault, (h.listed hd).fault, h.short⟩

/-- A file in the directory of a kind that can be reached is found. -/
theorem mem_files_of_file (hd : (kindPath root kind).listed = some dir)
    (h : t.Within ⟨root.stem ++ [kind.directory] ++ [name]⟩ (root.stem ++ [kind.directory]) name)
    (hm : isModuleName name = true) (hf : t.get? (placeOf root kind name) = some (.file bytes)) :
    name ∈ t.files root kind dir :=
  (mem_files_iff (h.passable.front (List.prefix_append _ _)) hd).2 ⟨h.listable hd hm, bytes, hf⟩

/-! ## Projects -/

/-- Whether a path leads to a project. -/
def isProject (t : Tree) (root : Path) : Bool :=
  decide ((t.isThere root).toOption = some true) &&
    (t.isFile (root.child indexName) ||
      EntityKind.all.any fun kind => t.isDirectory (kindPath root kind))

/-- A project has a path that is not at fault and leads to a directory. -/
theorem passable_of_isProject (h : t.isProject root = true) :
    root.fault? = none ∧ t.Passable root.stem := by
  rw [isProject, Bool.and_eq_true, decide_eq_true_iff, Bool.or_eq_true] at h
  obtain ⟨hthere, hproject⟩ := h
  constructor
  · rw [isThere, Tree.kind] at hthere
    cases hf : t.find root with
    | ok found => exact (find_eq_ok hf).1
    | error e =>
      rw [hf] at hthere
      cases e <;> cases hthere
  · rcases hproject with hindex | hkind
    · obtain ⟨l, bytes, hf⟩ := isFile_iff.1 hindex
      exact (within_of_find (by rw [rootIndex_pieces]) (by decide) hf).passable
    · obtain ⟨kind, -, hk⟩ := List.any_eq_true.1 hkind
      have hp := (isDirectory_iff.1 hk).2
      rw [kindPath_pieces] at hp
      exact hp.front (List.prefix_append _ _)

/-- The modules of a kind with what their files hold. -/
def fetched (t : Tree) (root : Path) (kind : EntityKind) : List FetchedModule :=
  (t.modules root kind).map fun file => ⟨kind, file, t.text file.path⟩

/-- What is read of a project. -/
def readProject (t : Tree) (root : Path) : ReadResult :=
  if t.isProject root then
    { ReadResult.ofModules root (EntityKind.all.flatMap (t.fetched root)) with
      lastModified := none }
  else .notAProject root

theorem looks_isProject (root : Path) :
    Looks (SchemaLoom.isProject root) fun t => t.isProject root := by
  intro t
  rw [SchemaLoom.isProject, run_bind, looks_isThere]
  dsimp only [isProject]
  by_cases hthere : (t.isThere root).toOption = some true
  · rw [if_pos hthere, decide_eq_true hthere, run_bind, looks_isFile, Bool.true_and]
    dsimp only
    by_cases hindex : t.isFile (root.child indexName) = true
    · rw [if_pos hindex, hindex]
      rfl
    · rw [if_neg hindex, Bool.eq_false_iff.2 hindex, Bool.false_or]
      exact Looks.anyM (fun kind => looks_isDirectory (kindPath root kind)) t
  · rw [if_neg hthere, decide_eq_false hthere]
    rfl

theorem looks_fetchModules (root : Path) (kind : EntityKind) :
    Looks (fetchModules root kind) fun t => .ok (t.fetched root kind) := by
  have hfile : ∀ file : ModuleFile,
      Looks (do return FetchedModule.mk kind file (← FileSystem.readText file.path))
        fun t => FetchedModule.mk kind file (t.text file.path) := fun file =>
    (looks_readText file.path).bind fun text => .pure (FetchedModule.mk kind file text)
  intro t
  rw [fetchModules, run_bind, looks_modules]
  dsimp only
  rw [run_bind, Looks.mapM hfile]
  rfl

theorem looks_readProject (root : Path) :
    Looks (SchemaLoom.readProject root) fun t => t.readProject root := by
  intro t
  rw [SchemaLoom.readProject, run_bind, looks_isProject]
  dsimp only [readProject]
  by_cases h : t.isProject root = true
  · have hkind : ∀ kind : EntityKind, Looks (do return (kind, ← fetchModules root kind))
        fun t => (kind, .ok (t.fetched root kind)) := fun kind =>
      (looks_fetchModules root kind).bind fun fetched => .pure (kind, fetched)
    rw [if_pos h, if_pos h, run_bind, Looks.mapM hkind, ReadResult.ofModules, List.foldl_flatMap]
    dsimp only
    rw [run_bind, List.foldl_map]
    rfl
  · rw [if_neg h, if_neg h]
    rfl

end Tree

end SchemaLoom
