/-
  The modules of a project by their files.

  * `mem_fetched_iff`: the modules of a kind are the files at their places;
  * `NamedFor.filterMap_filter`: if the entities of some kinds and names are in
    files of their names, the modules in other files declare all others.
-/
import SchemaLoom.Proofs.Project.Entities
import SchemaLoom.Proofs.Project.Retention

namespace SchemaLoom

variable {root : Path} {t : Tree} {kind : EntityKind} {r : EntityRef} {e : Entity}
  {f f' : FetchedModule} {refs : List EntityRef}

/-! ## Modules by their files -/

namespace FetchedModule

/-- The module of a kind that is in a file. -/
def ofFile (kind : EntityKind) (dir : Path) (name : String) (bytes : ByteArray) : FetchedModule :=
  ⟨kind, ⟨⟨dir.pieces ++ [name]⟩, moduleStem name⟩,
    match String.fromUTF8? bytes with
    | some text => .ok text
    | none => .error .notText⟩

/-- The name of the file of a module. -/
def fileName (f : FetchedModule) : String := f.file.path.pieces.getLastD ""

@[simp] theorem fileName_ofFile (kind : EntityKind) (dir : Path) (name : String)
    (bytes : ByteArray) : (ofFile kind dir name bytes).fileName = name := by
  simp [fileName, ofFile, List.getLastD_eq_getLast?]

/-- The module is in the file of one of these entities. -/
def IsOf (f : FetchedModule) (refs : List EntityRef) : Prop :=
  ∃ r ∈ refs, r.kind = f.kind ∧ moduleFile r.name = f.fileName

instance (f : FetchedModule) (refs : List EntityRef) : Decidable (f.IsOf refs) :=
  inferInstanceAs (Decidable (∃ r ∈ refs, _))

end FetchedModule

/-- **The modules of a kind are the files at their places.** -/
theorem mem_fetched_iff (hroot : t.Passable root.stem) : f ∈ t.fetched root kind ↔
    ∃ dir name bytes, (kindPath root kind).listed = some dir ∧
      Tree.Listable root kind dir name ∧
      t.get? (placeOf root kind name) = some (.file bytes) ∧ f = .ofFile kind dir name bytes := by
  have htext : ∀ {dir name bytes}, (kindPath root kind).listed = some dir →
      Tree.Listable root kind dir name → t.get? (placeOf root kind name) = some (.file bytes) →
      FetchedModule.mk kind ⟨⟨dir.pieces ++ [name]⟩, moduleStem name⟩
        (t.text ⟨dir.pieces ++ [name]⟩) = .ofFile kind dir name bytes := by
    intro dir name bytes hd hl hf
    have hw := hl.within hd (Tree.passable_kindPath hroot (by rw [hf]; nofun))
    rw [← Tree.locationOf_listed hd hw.enters] at hf
    rw [Tree.text, hw.contents hf]
    rfl
  rw [Tree.fetched, Tree.modules]
  cases hd : (kindPath root kind).listed with
  | none => simp
  | some dir =>
    simp only [List.map_map, List.mem_map, Tree.mem_files_iff hroot hd]
    constructor
    · rintro ⟨name, ⟨hl, bytes, hf⟩, rfl⟩
      exact ⟨dir, name, bytes, rfl, hl, hf, htext hd hl hf⟩
    · rintro ⟨dir', name, bytes, hdir, hl, hf, rfl⟩
      obtain rfl := Option.some.inj hdir
      exact ⟨name, ⟨hl, bytes, hf⟩, htext hd hl hf⟩

theorem nodup_allFetched (t : Tree) (root : Path) : (allFetched t root).Nodup := by
  rw [allFetched, List.nodup_flatMap]
  constructor
  · intro kind _
    rw [Tree.fetched, Tree.modules]
    cases (kindPath root kind).listed with
    | none => exact List.nodup_nil
    | some dir =>
      rw [List.map_map]
      refine Tree.files_nodup.map fun a b h => ?_
      have hpieces := congrArg (fun f : FetchedModule => f.file.path.pieces) h
      exact (List.cons.inj (List.append_cancel_left hpieces)).1
  · refine List.Pairwise.imp (fun {a b} hab f ha hb => hab ?_)
      (show EntityKind.all.Nodup by decide)
    obtain ⟨_, -, rfl⟩ := List.mem_map.1 ha
    obtain ⟨_, -, hk⟩ := List.mem_map.1 hb
    exact (congrArg FetchedModule.kind hk).symm

/-- Modules of one kind in files of one name are the same. -/
theorem eq_of_fileName (hroot : t.Passable root.stem) (h : f ∈ allFetched t root)
    (h' : f' ∈ allFetched t root) (hk : f.kind = f'.kind) (hn : f.fileName = f'.fileName) :
    f = f' := by
  obtain ⟨dir, name, bytes, hd, -, hf, he⟩ := (mem_fetched_iff hroot).1 (mem_allFetched.1 h)
  obtain ⟨dir', name', bytes', hd', -, hf', he'⟩ :=
    (mem_fetched_iff hroot).1 (mem_allFetched.1 h')
  rw [he, he', FetchedModule.fileName_ofFile, FetchedModule.fileName_ofFile] at hn
  subst hn
  rw [← hk] at hd' hf' he'
  obtain rfl := Option.some.inj (hd.symm.trans hd')
  obtain rfl := Entry.file.inj (Option.some.inj (hf.symm.trans hf'))
  rw [he, he']

/-! ## Modules of their names -/

/-- Every module that declares an entity that is touched is in the file of its
    name, and so is what the file of an entity that is touched declares. -/
def NamedFor (refs : List EntityRef) (fetched : List FetchedModule) : Prop :=
  ∀ f ∈ fetched, ∀ e, f.entity? = some e → e.ref ∈ refs ∨ f.IsOf refs →
    f.fileName = moduleFile e.ref.name

instance (refs : List EntityRef) (fetched : List FetchedModule) :
    Decidable (NamedFor refs fetched) :=
  decidable_of_iff (∀ f ∈ fetched, ∀ e ∈ f.entity?, e.ref ∈ refs ∨ f.IsOf refs →
    f.fileName = moduleFile e.ref.name) Iff.rfl

section
variable {fetched : List FetchedModule}

/-- The module of an entity that is touched is in the file of one. -/
theorem NamedFor.isOf_iff (h : NamedFor refs fetched) (hf : f ∈ fetched)
    (he : f.entity? = some e) : f.IsOf refs ↔ e.ref ∈ refs := by
  have hk := FetchedModule.kind_of_entity? he
  constructor
  · intro hof
    obtain ⟨r, hr, hkind, hn⟩ := hof
    have hn := moduleFile_injective (hn.trans (h f hf e he (.inr ⟨r, hr, hkind, hn⟩)))
    have href : r = e.ref := congr (congrArg EntityRef.mk (hkind.trans hk.symm)) hn
    exact href ▸ hr
  · exact fun hr => ⟨e.ref, hr, hk, (h f hf e he (.inl hr)).symm⟩

/-- The entities in other files are those that are not touched. -/
theorem NamedFor.filterMap_filter (h : NamedFor refs fetched) :
    (fetched.filter fun f => ¬ f.IsOf refs).filterMap FetchedModule.entity? =
      (fetched.filterMap FetchedModule.entity?).filter fun e => e.ref ∉ refs := by
  rw [List.filterMap_filter, List.filter_filterMap]
  refine List.filterMap_congr fun f hf => ?_
  cases he : f.entity? with
  | none => simp
  | some e =>
    by_cases hr : e.ref ∈ refs
    · simp [(h.isOf_iff hf he).2 hr, hr, Option.filter]
    · simp [mt (h.isOf_iff hf he).1 hr, hr, Option.filter]

end

/-- What each element of a list without repetition is mapped to occurs once, if no
    two elements are mapped to the same. -/
theorem count_filterMap_le_one {α β : Type} [BEq β] [LawfulBEq β] {as : List α}
    {g : α → Option β} {b : β} (hn : as.Nodup)
    (hg : ∀ a ∈ as, ∀ a' ∈ as, g a = some b → g a' = some b → a = a') :
    (as.filterMap g).count b ≤ 1 := by
  induction as with
  | nil => simp
  | cons a as ih =>
    obtain ⟨hnew, hn⟩ := List.nodup_cons.1 hn
    have hrest := ih hn fun a ha a' ha' =>
      hg a (List.mem_cons_of_mem _ ha) a' (List.mem_cons_of_mem _ ha')
    by_cases ha : g a = some b
    · have hnone : (as.filterMap g).count b = 0 := by
        refine List.count_eq_zero.2 fun hm => ?_
        obtain ⟨a', ha', hb⟩ := List.mem_filterMap.1 hm
        exact hnew (hg a List.mem_cons_self a' (List.mem_cons_of_mem _ ha') ha hb ▸ ha')
      exact Nat.le_of_eq (by rw [List.filterMap_cons_some ha, List.count_cons_self, hnone])
    · cases hga : g a with
      | none => rwa [List.filterMap_cons_none hga]
      | some c =>
        have hc : c ≠ b := fun hc => ha (hga.trans (congrArg some hc))
        rwa [List.filterMap_cons_some hga, List.count_cons_of_ne hc]

/-- An entity that is touched is declared once. -/
theorem countRef_le_one (hroot : t.Passable root.stem) (hn : NamedFor refs (allFetched t root))
    (hr : r ∈ refs) {s : Schema}
    (hs : s.entities.Perm ((allFetched t root).filterMap FetchedModule.entity?)) :
    s.countRef r ≤ 1 := by
  rw [Schema.countRef, (hs.map Entity.ref).count_eq, List.map_filterMap]
  refine count_filterMap_le_one (nodup_allFetched t root) fun f hf f' hf' h h' => ?_
  obtain ⟨e, he, rfl⟩ := Option.map_eq_some_iff.1 h
  obtain ⟨e', he', href⟩ := Option.map_eq_some_iff.1 h'
  refine eq_of_fileName hroot hf hf' ?_ ?_
  · rw [← FetchedModule.kind_of_entity? he, ← FetchedModule.kind_of_entity? he', href]
  · rw [hn f hf e he (.inl hr), hn f' hf' e' he' (.inl (href ▸ hr)), href]

end SchemaLoom
