/-
  The tree after the modules of a project are written.

  Where nothing was before, what lies below the path of the project is known:
  the modules, the directories of their kinds, and the directories that the
  path itself passes through (`Holds`).

  * `Holds.write`, `Holds.writeEntities`: every module that is written keeps
    this.
-/
import SchemaLoom.Project.Writing
import SchemaLoom.Proofs.Project.Layout

namespace SchemaLoom

open FileSystem

variable {root : Path} {t u : Tree} {text : GeneratedEntity → String}
  {written : List GeneratedEntity} {g : GeneratedEntity}

/-! ## Places -/

/-- The path of the project passes through a location. -/
def Through (root : Path) (l : Location) : Prop :=
  ∃ front, front <+: root.pieces ∧ l = locationOf front

theorem prefix_foldl_follow {pieces : List String} (h : ".." ∉ pieces) (l : Location) :
    l <+: pieces.foldl Location.follow l := by
  induction pieces generalizing l with
  | nil => exact List.prefix_refl l
  | cons piece pieces ih =>
    rw [List.mem_cons, not_or] at h
    have hstep : l <+: l.follow piece := by
      rw [Location.follow, if_neg (Ne.symm h.1)]
      split
      · exact List.prefix_append l [piece]
      · exact List.prefix_refl l
    exact hstep.trans (ih h.2 _)

/-- A path that never goes up passes through nothing below its end. -/
theorem not_through_of_notMem (h : ".." ∉ root.pieces) (name : String) (rest : Location) :
    ¬ Through root (root.location ++ name :: rest) := by
  rintro ⟨front, ⟨back, hb⟩, hl⟩
  have hback : ".." ∉ back := fun hm => h (hb ▸ List.mem_append_right front hm)
  have hle := (prefix_foldl_follow hback (locationOf front)).length_le
  have hroot : root.location = back.foldl Location.follow (locationOf front) := by
    rw [Path.location, ← hb, locationOf, List.foldl_append]
    rfl
  rw [← hroot, ← hl, List.length_append, List.length_cons] at hle
  omega

/-- Where the module of an entity is. -/
def GeneratedEntity.place (root : Path) (g : GeneratedEntity) : Location :=
  placeOf root g.kind (moduleFile g.name)

theorem directory_injective {a b : EntityKind} (h : a.directory = b.directory) : a = b := by
  revert h
  cases a <;> cases b <;> decide

theorem placeOf_injective {a b : EntityKind} {file other : String}
    (h : placeOf root a file = placeOf root b other) : a = b ∧ file = other := by
  have hl := List.append_cancel_left h
  obtain ⟨hd, hf⟩ := List.cons.inj hl
  exact ⟨directory_injective hd, (List.cons.inj hf).1⟩

theorem placeOf_ne_directory (a b : EntityKind) (file : String) :
    placeOf root a file ≠ root.location ++ [b.directory] :=
  fun h => nomatch (List.cons.inj (List.append_cancel_left h)).2

theorem locationOf_entityPath (kind : EntityKind) {name : String} (hn : '/' ∉ name.toList) :
    locationOf (entityPath root kind name).pieces = placeOf root kind (moduleFile name) := by
  rw [entityPath_pieces root kind hn]
  exact locationOf_placeOf root kind (enters_moduleFile name)

/-- The directories above a module are those that the path of the project passes
    through, and that of its kind. -/
theorem through_or_directory {kind : EntityKind} {front : List String}
    (h : front <+: root.stem ++ [kind.directory]) :
    Through root (locationOf front) ∨ locationOf front = root.location ++ [kind.directory] := by
  rcases List.prefix_concat_iff.1 h with rfl | h
  · exact .inr (locationOf_kindPath root kind)
  · exact .inl ⟨front, h.trans root.stem_prefix, rfl⟩

/-! ## What is there -/

/-- Nothing is below the path of the project. -/
def Vacant (root : Path) (t : Tree) : Prop :=
  ∀ name rest, t.get? (root.location ++ name :: rest) = none

/-- Below the path of the project are the modules of the entities that were
    written, and the directories that they need. -/
structure Holds (root : Path) (text : GeneratedEntity → String) (written : List GeneratedEntity)
    (t : Tree) : Prop where
  file : ∀ name rest bytes, t.get? (root.location ++ name :: rest) = some (.file bytes) →
    ∃ g ∈ written, root.location ++ name :: rest = g.place root
  directory : ∀ name rest, t.get? (root.location ++ name :: rest) = some .directory →
    Through root (root.location ++ name :: rest) ∨
      ∃ kind : EntityKind, root.location ++ name :: rest = root.location ++ [kind.directory]
  /-- The place of a module is taken by a directory only if the path of the
      project passes through it. -/
  there : ∀ g ∈ written, t.get? (g.place root) = some (.file (text g).toUTF8) ∨
    Through root (g.place root) ∧ t.get? (g.place root) = some .directory
  within : ∀ g ∈ written, t.Within (entityPath root g.kind g.name)
    (root.stem ++ [g.kind.directory]) (moduleFile g.name)

theorem Vacant.holds (h : Vacant root t) : Holds root text [] t where
  file name rest bytes hf := by rw [h name rest] at hf; cases hf
  directory name rest hd := by rw [h name rest] at hd; cases hd
  there := by simp
  within := by simp

/-- A directory is where a module belongs only if the path of the project passes
    through it. -/
theorem Holds.through (h : Holds root text written t) {kind : EntityKind} {file : String}
    (hd : t.get? (placeOf root kind file) = some .directory) :
    Through root (placeOf root kind file) :=
  (h.directory kind.directory [file] hd).resolve_right
    fun ⟨other, ho⟩ => placeOf_ne_directory kind other file ho

theorem pieces_place (root : Path) {g : GeneratedEntity}
    (hn : Text.isIdentifier g.name = true) :
    (entityPath root g.kind g.name).pieces =
      root.stem ++ [g.kind.directory] ++ [moduleFile g.name] := by
  rw [entityPath_pieces root g.kind (slash_notMem_of_isIdentifier hn)]

theorem locationOf_place (root : Path) {g : GeneratedEntity}
    (hn : Text.isIdentifier g.name = true) :
    locationOf (entityPath root g.kind g.name).pieces = g.place root :=
  locationOf_entityPath g.kind (slash_notMem_of_isIdentifier hn)

/-- A module that is written. -/
theorem Holds.put (h : Holds root text written t) (hn : Text.isIdentifier g.name = true)
    (hnew : ∀ e ∈ written, e.place root ≠ g.place root) {a : Tree}
    (hg : Tree.Grows (fun l => ∃ front, front <+: root.stem ++ [g.kind.directory] ∧
      l = locationOf front) t a)
    (hw : a.write (entityPath root g.kind g.name) (text g).toUTF8 = .ok u) :
    Holds root text (written ++ [g]) u := by
  obtain ⟨hwithin, hfree, hu⟩ :=
    Tree.write_eq_ok (pieces_place root hn) (enters_moduleFile g.name) hw
  rw [locationOf_place root hn] at hfree hu
  have hau : ∀ l, a.get? l = some .directory → u.get? l = some .directory := by
    intro l hl
    rw [hu l, if_neg, hl]
    rintro rfl
    exact hfree hl
  refine ⟨fun name rest bytes hf => ?_, fun name rest hd => ?_, ?_, ?_⟩
  · rw [hu] at hf
    by_cases hl : root.location ++ name :: rest = g.place root
    · exact ⟨g, by simp, hl⟩
    · rw [if_neg hl] at hf
      rcases hg (root.location ++ name :: rest) with hl | ⟨-, hl, -⟩
      · obtain ⟨e, he, hp⟩ := h.file name rest bytes (hl ▸ hf)
        exact ⟨e, List.mem_append_left _ he, hp⟩
      · rw [hl] at hf
        cases hf
  · rw [hu] at hd
    by_cases hl : root.location ++ name :: rest = g.place root
    · rw [if_pos hl] at hd
      cases hd
    · rw [if_neg hl] at hd
      rcases hg (root.location ++ name :: rest) with hl | ⟨-, -, front, hf, hl⟩
      · exact h.directory name rest (hl ▸ hd)
      · rw [hl]
        exact (through_or_directory hf).imp_right fun hd => ⟨g.kind, hd⟩
  · refine List.forall_mem_append.2 ⟨fun e he => ?_, List.forall_mem_singleton.2 (.inl ?_)⟩
    · have hkept : u.get? (e.place root) = t.get? (e.place root) := by
        rw [hu, if_neg (hnew e he)]
        refine (hg (e.place root)).resolve_right fun ⟨hnone, _⟩ => ?_
        rcases h.there e he with hf | ⟨-, hf⟩ <;> rw [hf] at hnone <;> cases hnone
      rw [hkept]
      exact h.there e he
    · rw [hu]
      exact if_pos rfl
  · refine List.forall_mem_append.2 ⟨fun e he => ?_, List.forall_mem_singleton.2 ?_⟩
    · exact (h.within e he).mono fun l hl => hau l (hg.directory hl)
    · exact hwithin.mono hau

/-- A module that is not written because something is there, which is no module
    as long as none is written twice. -/
theorem Holds.skip (h : Holds root text written t) (hn : Text.isIdentifier g.name = true)
    (hnew : ∀ e ∈ written, e.place root ≠ g.place root) {l : Location} {node : Node}
    (hf : t.find (entityPath root g.kind g.name) = .ok (l, node)) :
    Holds root text (written ++ [g]) t := by
  obtain ⟨-, hl, hnode, -⟩ := Tree.find_eq_ok hf
  rw [locationOf_place root hn] at hl
  have hget : t.get? (g.place root) = some node.entry := by
    rw [Tree.get?, ← hl, hnode]
    rfl
  have hdirectory : t.get? (g.place root) = some .directory := by
    cases node with
    | directory nodes => exact hget
    | file bytes =>
      obtain ⟨e, he, hp⟩ := h.file g.kind.directory [moduleFile g.name] bytes hget
      exact absurd hp.symm (hnew e he)
  refine ⟨fun name rest bytes hf => ?_, h.directory, ?_, ?_⟩
  · obtain ⟨e, he, hp⟩ := h.file name rest bytes hf
    exact ⟨e, List.mem_append_left _ he, hp⟩
  · refine List.forall_mem_append.2 ⟨h.there, List.forall_mem_singleton.2 (.inr ?_)⟩
    exact ⟨h.through hdirectory, hdirectory⟩
  · refine List.forall_mem_append.2 ⟨h.within, List.forall_mem_singleton.2 ?_⟩
    exact Tree.within_of_find (pieces_place root hn) (enters_moduleFile g.name) hf

/-- A module more. -/
theorem Holds.write (h : Holds root text written t) (hn : Text.isIdentifier g.name = true)
    (hnew : ∀ e ∈ written, e.place root ≠ g.place root) {overwrite done : Bool}
    (hw : (writeText (entityPath root g.kind g.name) (text g) overwrite :
      StateM Tree (Except FileError Bool)) t = (.ok done, u)) :
    Holds root text (written ++ [g]) u := by
  rcases Tree.writeText_eq_ok (pieces_place root hn) (enters_moduleFile g.name) hw with
    ⟨a, hg, hwrite⟩ | ⟨rfl, l, node, hf⟩
  · exact h.put hn hnew hg hwrite
  · exact h.skip hn hnew hf

/-! ## Runs -/

theorem errors_append (a b : WriteReport) : (a ++ b).errors = a.errors ++ b.errors := rfl

/-- The text of the module of an entity among some tables. -/
def moduleText (tables : List TableDef) (g : GeneratedEntity) : String :=
  g.render ((ImportScope.within g.kind).withTables tables)

theorem writeEntity_run (root : Path) (tables : List TableDef) (overwrite : Bool)
    (g : GeneratedEntity) (t : Tree) :
    (writeEntity root tables overwrite g : StateM Tree WriteReport) t =
      let done := (writeText (entityPath root g.kind g.name) (moduleText tables g) overwrite :
        StateM Tree (Except FileError Bool)) t
      (.ofWrite (entityPath root g.kind g.name) done.1, done.2) :=
  rfl

theorem ofWrite_errors {p : Path} {r : Except FileError Bool}
    (h : (WriteReport.ofWrite p r).errors = []) : ∃ done, r = .ok done := by
  cases r with
  | ok done => exact ⟨done, rfl⟩
  | error e => cases h

/-- The entities are written one after the other. -/
theorem writeEntities_cons (root : Path) (tables : List TableDef) (overwrite : Bool)
    (g : GeneratedEntity) (gs : List GeneratedEntity) (r : WriteReport) (t : Tree) :
    ((g :: gs).foldlM (fun r e => return r ++ (← writeEntity root tables overwrite e)) r :
        StateM Tree WriteReport) t =
      let first := (writeEntity root tables overwrite g : StateM Tree WriteReport) t
      (gs.foldlM (fun r e => return r ++ (← writeEntity root tables overwrite e)) (r ++ first.1) :
        StateM Tree WriteReport) first.2 := by
  rw [List.foldlM_cons]
  rfl

section
variable {tables : List TableDef} {overwrite : Bool} {gs : List GeneratedEntity}
  {r report : WriteReport}

/-- Faults stay in the report. -/
theorem writeEntities_errors
    (hw : (gs.foldlM (fun r e => return r ++ (← writeEntity root tables overwrite e)) r :
      StateM Tree WriteReport) t = (report, u)) (he : report.errors = []) : r.errors = [] := by
  induction gs generalizing r t with
  | nil =>
    obtain rfl : r = report := congrArg Prod.fst hw
    exact he
  | cons g gs ih =>
    rw [writeEntities_cons] at hw
    have h := ih hw
    rw [errors_append] at h
    exact (List.append_eq_nil_iff.1 h).1

/-- **Modules that are written without a fault are there.** -/
theorem Holds.writeEntities (h : Holds root (moduleText tables) written t)
    (hn : ∀ g ∈ gs, Text.isIdentifier g.name = true)
    (hnodup : ((written ++ gs).map (GeneratedEntity.place root)).Nodup)
    (hw : (gs.foldlM (fun r e => return r ++ (← writeEntity root tables overwrite e)) r :
      StateM Tree WriteReport) t = (report, u)) (he : report.errors = []) :
    Holds root (moduleText tables) (written ++ gs) u := by
  induction gs generalizing written t r with
  | nil =>
    obtain rfl : t = u := congrArg Prod.snd hw
    rwa [List.append_nil]
  | cons g gs ih =>
    obtain ⟨hg, hgs⟩ := List.forall_mem_cons.1 hn
    rw [writeEntities_cons, writeEntity_run] at hw
    have herr := writeEntities_errors hw he
    rw [errors_append] at herr
    obtain ⟨done, hdone⟩ := ofWrite_errors (List.append_eq_nil_iff.1 herr).2
    have hnew : ∀ e ∈ written, e.place root ≠ g.place root := by
      rw [List.map_append, List.map_cons, List.nodup_append] at hnodup
      exact fun e hm => hnodup.2.2 _ (List.mem_map_of_mem hm) _ List.mem_cons_self
    rw [List.append_cons] at hnodup ⊢
    exact ih (h.write hg hnew (Prod.ext hdone rfl)) hgs hnodup hw

end

end SchemaLoom
