/-
  The tree of a project in which modules are removed and others are written.

  * `removeEntities_eq_ok`, `writeEntities_eq_ok`: the modules that are removed
    are gone, those that are written are there, and all others stay as they are;
  * `Plan.carryOut_eq_ok`: the tree after a plan is carried out.
-/
import SchemaLoom.Proofs.Project.Entities
import SchemaLoom.Proofs.Project.Retention

namespace SchemaLoom

open FileSystem

variable {root : Path} {t u v : Tree} {r : EntityRef} {g : GeneratedEntity}

/-- Where the module of an entity is. -/
def EntityRef.place (root : Path) (r : EntityRef) : Location :=
  placeOf root r.kind (moduleFile r.name)

theorem EntityRef.place_injective {r r' : EntityRef} (h : r.place root = r'.place root) :
    r = r' := by
  obtain ⟨hk, hf⟩ := placeOf_injective h
  exact congr (congrArg EntityRef.mk hk) (moduleFile_injective hf)

/-- No directory is lost, and files in the directories of the project stay as
    they are, except for the modules of some entities and the indexes. -/
structure Rewritten (root : Path) (refs : List EntityRef) (t u : Tree) : Prop where
  directory : ∀ l, t.get? l = some .directory → u.get? l = some .directory
  file : ∀ (kind : EntityKind) file bytes, file ≠ indexName →
    placeOf root kind file ∉ refs.map (EntityRef.place root) →
      (u.get? (placeOf root kind file) = some (.file bytes) ↔
        t.get? (placeOf root kind file) = some (.file bytes))

namespace Rewritten

variable {refs refs' : List EntityRef}

theorem refl (root : Path) (t : Tree) : Rewritten root [] t t :=
  ⟨fun _ h => h, fun _ _ _ _ _ => .rfl⟩

theorem trans (h : Rewritten root refs t u) (g : Rewritten root refs' u v) :
    Rewritten root (refs ++ refs') t v := by
  refine ⟨fun l hl => g.directory l (h.directory l hl), fun kind file bytes hi hf => ?_⟩
  rw [List.map_append, List.mem_append, not_or] at hf
  exact (g.file kind file bytes hi hf.2).trans (h.file kind file bytes hi hf.1)

theorem mono (h : Rewritten root refs t u) (hr : refs ⊆ refs') : Rewritten root refs' t u :=
  ⟨h.directory, fun kind file bytes hi hf =>
    h.file kind file bytes hi fun hm => hf (List.map_subset _ hr hm)⟩

theorem of_reindexed (h : Reindexed root t u) : Rewritten root [] t u :=
  ⟨h.directory, fun kind file bytes hi _ => h.file kind file bytes hi⟩

theorem of_changesOnly (h : t.ChangesOnly (r.place root) u) : Rewritten root [r] t u :=
  ⟨h.directory, fun kind file bytes _ hf => h.file _ bytes fun he => hf (by simp [he])⟩

theorem passable (h : Rewritten root refs t u) {pieces : List String} (hp : t.Passable pieces) :
    u.Passable pieces :=
  hp.mono h.directory

/-- The module of another entity stays as it is. -/
theorem module (h : Rewritten root refs t u) (hi : r.name ≠ "index") (hr : r ∉ refs)
    (bytes : ByteArray) : u.get? (r.place root) = some (.file bytes) ↔
      t.get? (r.place root) = some (.file bytes) := by
  refine h.file r.kind (moduleFile r.name) bytes (moduleFile_ne_indexName hi) fun hm => ?_
  obtain ⟨r', hr', hp⟩ := List.mem_map.1 hm
  exact hr (EntityRef.place_injective hp ▸ hr')

end Rewritten

/-! ## Modules that are removed -/

/-- The module of an entity is removed if it is there. -/
theorem removeEntity_eq_ok {there : Bool} (hs : '/' ∉ r.name.toList)
    (hroot : t.Passable root.stem)
    (h : (removeEntity root r.kind r.name : StateM Tree (Except FileError Bool)) t =
      (.ok there, u)) :
    Rewritten root [r] t u ∧ ∀ bytes, u.get? (r.place root) ≠ some (.file bytes) := by
  have hp : (entityPath root r.kind r.name).pieces =
      root.stem ++ [r.kind.directory] ++ [moduleFile r.name] := by
    rw [entityPath_pieces root r.kind hs]
  have hplace : locationOf (entityPath root r.kind r.name).pieces = r.place root :=
    locationOf_entityPath r.kind hs
  have he := enters_moduleFile r.name
  rcases Tree.removeIfThere_eq_ok h with hremove | ⟨rfl, hnone⟩
  · have hchanges := Tree.changesOnly_remove hp he hremove
    obtain ⟨-, hu⟩ := Tree.remove_eq_ok hp he hremove
    rw [hplace] at hchanges hu
    refine ⟨.of_changesOnly hchanges, fun bytes => ?_⟩
    rw [hu, if_pos rfl]
    nofun
  · refine ⟨.of_changesOnly ⟨fun _ hk => hk, fun _ _ _ => .rfl⟩, fun bytes hb => ?_⟩
    have hthere : t.get? (placeOf root r.kind (moduleFile r.name)) ≠ none := by
      rw [← EntityRef.place, hb]
      nofun
    have hfree := Tree.get?_of_noSuchFile hp he (Tree.passable_kindPath hroot hthere) hnone
    rw [hplace, hb] at hfree
    cases hfree

/-- **The modules of entities are removed, and all others stay as they are.** -/
theorem removeEntities_eq_ok {refs : List EntityRef} {paths : List Path}
    (hs : ∀ r ∈ refs, '/' ∉ r.name.toList) (hroot : t.Passable root.stem)
    (h : (removeEntities root refs : StateM Tree (Except FileError (List Path))) t =
      (.ok paths, u)) :
    Rewritten root refs t u ∧
      ∀ r ∈ refs, r.name ≠ "index" → ∀ bytes, u.get? (r.place root) ≠ some (.file bytes) := by
  induction refs generalizing t paths with
  | nil =>
    obtain rfl : t = u := congrArg Prod.snd h
    exact ⟨.refl root t, by simp⟩
  | cons r refs ih =>
    obtain ⟨hr, hrefs⟩ := List.forall_mem_cons.1 hs
    rw [removeEntities, Tree.run_bind] at h
    cases hfirst : (removeEntity root r.kind r.name : StateM Tree (Except FileError Bool)) t with
    | mk first a =>
    rw [hfirst] at h
    cases first with
    | error e => cases congrArg Prod.fst h
    | ok there =>
      obtain ⟨hrewritten, hgone⟩ := removeEntity_eq_ok hr hroot hfirst
      have hrun : ((removeEntities root refs : StateM Tree (Except FileError (List Path))) >>=
          fun rest => return rest.map fun paths =>
            if there then entityPath root r.kind r.name :: paths else paths) a =
          (.ok paths, u) := h
      rw [Tree.run_bind] at hrun
      cases hrest : (removeEntities root refs : StateM Tree (Except FileError (List Path))) a with
      | mk rest b =>
      rw [hrest] at hrun
      obtain rfl : b = u := congrArg Prod.snd hrun
      cases rest with
      | error e => cases congrArg Prod.fst hrun
      | ok others =>
        obtain ⟨hothers, hall⟩ := ih hrefs (hrewritten.passable hroot) hrest
        refine ⟨hrewritten.trans hothers, List.forall_mem_cons.2 ⟨fun hi bytes hb => ?_, hall⟩⟩
        by_cases hm : r ∈ refs
        · exact hall r hm hi bytes hb
        · exact hgone bytes ((hothers.module hi hm bytes).1 hb)

/-! ## Modules that are written -/

/-- The module of an entity is there with a text, and can be reached. -/
structure Present (root : Path) (text : GeneratedEntity → String) (g : GeneratedEntity)
    (t : Tree) : Prop where
  there : t.get? (g.place root) = some (.file (text g).toUTF8)
  within : t.Within (entityPath root g.kind g.name) (root.stem ++ [g.kind.directory])
    (moduleFile g.name)

theorem Present.rewritten {text : GeneratedEntity → String} {refs : List EntityRef}
    (h : Present root text g t) (hu : Rewritten root refs t u) (hi : g.name ≠ "index")
    (hg : g.ref ∉ refs) : Present root text g u :=
  ⟨(hu.module hi hg _).2 h.there, h.within.mono hu.directory⟩

section
variable {tables : List TableDef} {gs : List GeneratedEntity} {report : WriteReport}

/-- The module of an entity is written in place of what was there. -/
theorem writeEntity_eq_ok (hn : Text.isIdentifier g.name = true)
    (h : (writeEntity root tables true g : StateM Tree WriteReport) t = (report, u))
    (he : report.errors = []) :
    Rewritten root [g.ref] t u ∧ Present root (moduleText tables) g u := by
  rw [writeEntity_run] at h
  obtain ⟨hreport, hu⟩ := Prod.mk.inj h
  rw [← hreport] at he
  obtain ⟨done, hdone⟩ := ofWrite_errors he
  obtain ⟨hchanges, hthere, hwithin⟩ := Tree.overwriteText_eq_ok (pieces_place root hn)
    (enters_moduleFile g.name) (Prod.ext hdone hu)
  rw [locationOf_place root hn] at hchanges hthere
  exact ⟨Rewritten.of_changesOnly (r := g.ref) hchanges, hthere, hwithin⟩

/-- **The modules of entities are written, and all others stay as they are.** -/
theorem writeEntities_eq_ok {r : WriteReport} (hn : ∀ g ∈ gs, Text.isIdentifier g.name = true)
    (hi : ∀ g ∈ gs, g.name ≠ "index") (hnodup : (gs.map GeneratedEntity.ref).Nodup)
    (h : (gs.foldlM (fun r e => return r ++ (← writeEntity root tables true e)) r :
      StateM Tree WriteReport) t = (report, u)) (he : report.errors = []) :
    Rewritten root (gs.map GeneratedEntity.ref) t u ∧
      ∀ g ∈ gs, Present root (moduleText tables) g u := by
  induction gs generalizing t r with
  | nil =>
    obtain rfl : t = u := congrArg Prod.snd h
    exact ⟨.refl root t, by simp⟩
  | cons g gs ih =>
    obtain ⟨hng, hngs⟩ := List.forall_mem_cons.1 hn
    obtain ⟨hig, higs⟩ := List.forall_mem_cons.1 hi
    obtain ⟨hnew, hnodup⟩ := List.nodup_cons.1 hnodup
    rw [writeEntities_cons] at h
    cases hfirst : (writeEntity root tables true g : StateM Tree WriteReport) t with
    | mk first a =>
    rw [hfirst] at h
    have herr := writeEntities_errors h he
    rw [errors_append] at herr
    obtain ⟨hrewritten, hpresent⟩ := writeEntity_eq_ok hng hfirst (List.append_eq_nil_iff.1 herr).2
    obtain ⟨hothers, hall⟩ := ih hngs higs hnodup h
    exact ⟨hrewritten.trans hothers,
      List.forall_mem_cons.2 ⟨hpresent.rewritten hothers hig hnew, hall⟩⟩

end

/-! ## Plans -/

/-- **A plan is carried out**: the modules that it removes are gone, those that it
    writes are there, and all others stay as they are. -/
theorem Plan.carryOut_eq_ok {p : Plan} {report : MaterializeReport}
    (hs : ∀ r ∈ p.removed, '/' ∉ r.name.toList)
    (hn : ∀ g ∈ p.entities, Text.isIdentifier g.name = true)
    (hi : ∀ g ∈ p.entities, g.name ≠ "index")
    (hnodup : (p.entities.map GeneratedEntity.ref).Nodup) (hroot : t.Passable root.stem)
    (h : (p.carryOut root : StateM Tree (Except MaterializeError MaterializeReport)) t =
      (.ok report, u)) :
    Rewritten root (p.removed ++ p.entities.map GeneratedEntity.ref) t u ∧
      (∀ r ∈ p.removed, r.name ≠ "index" → r ∉ p.entities.map GeneratedEntity.ref →
        ∀ bytes, u.get? (r.place root) ≠ some (.file bytes)) ∧
      ∀ g ∈ p.entities, Present root (moduleText p.tables) g u := by
  rw [carryOut, Tree.run_bind] at h
  cases hremoved : (removeEntities root p.removed :
      StateM Tree (Except FileError (List Path))) t with
  | mk removed a =>
  rw [hremoved] at h
  cases removed with
  | error e => cases congrArg Prod.fst h
  | ok removed =>
    obtain ⟨hremoved, hgone⟩ := removeEntities_eq_ok hs hroot hremoved
    dsimp only at h
    rw [Tree.run_bind] at h
    cases hwritten : (writeEntities root p.entities p.tables true : StateM Tree WriteReport) a with
    | mk written b =>
    rw [hwritten] at h
    dsimp only at h
    rw [Tree.run_bind] at h
    have herr : (written ++ ((writeIndexes root : StateM Tree WriteReport) b).1).errors = [] := by
      cases he : (written ++ ((writeIndexes root : StateM Tree WriteReport) b).1).errors with
      | nil => rfl
      | cons e es =>
        rw [he] at h
        cases congrArg Prod.fst h
    rw [herr] at h
    obtain rfl : ((writeIndexes root : StateM Tree WriteReport) b).2 = u := congrArg Prod.snd h
    rw [errors_append] at herr
    obtain ⟨hwrote, hindexes⟩ := List.append_eq_nil_iff.1 herr
    obtain ⟨hwritten, hpresent⟩ := writeEntities_eq_ok hn hi hnodup hwritten hwrote
    have hindexed := Rewritten.of_reindexed (reindexed_writeIndexes hindexes)
    have hkept := hwritten.trans hindexed
    refine ⟨by simpa using hremoved.trans hkept, fun r hr hir hnew bytes hb => ?_, fun g hg => ?_⟩
    · exact hgone r hr hir bytes ((hkept.module hir (by simpa using hnew) bytes).1 hb)
    · exact (hpresent g hg).rewritten hindexed (hi g hg) List.not_mem_nil

end SchemaLoom
