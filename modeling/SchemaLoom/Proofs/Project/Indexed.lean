/-
  The tree after the indexes of a project are written.

  * `reindexed_writeIndexes`: no directory is lost, and files that are no index
    stay as they are;
  * `Vacant.writeIndexes`: where there are no modules, nothing is made.
-/
import SchemaLoom.Proofs.Project.Listing
import SchemaLoom.Proofs.Project.Written

namespace SchemaLoom

open FileSystem

variable {root : Path} {t u v : Tree} {p : Path} {pre : List String} {name : String}

/-- No directory is lost, and files in the directories of the project stay as
    they are, except for the indexes. -/
structure Reindexed (root : Path) (t u : Tree) : Prop where
  directory : ∀ l, t.get? l = some .directory → u.get? l = some .directory
  file : ∀ (kind : EntityKind) file bytes, file ≠ indexName →
    (u.get? (placeOf root kind file) = some (.file bytes) ↔
      t.get? (placeOf root kind file) = some (.file bytes))

namespace Reindexed

theorem refl (root : Path) (t : Tree) : Reindexed root t t := ⟨fun _ h => h, fun _ _ _ _ => .rfl⟩

theorem trans (h : Reindexed root t u) (g : Reindexed root u v) : Reindexed root t v :=
  ⟨fun l hl => g.directory l (h.directory l hl),
    fun kind file bytes hf => (g.file kind file bytes hf).trans (h.file kind file bytes hf)⟩

end Reindexed

/-- Where an index is, no module is. -/
def NoModule (root : Path) (l : Location) : Prop :=
  ∀ (kind : EntityKind) file, file ≠ indexName → placeOf root kind file ≠ l

theorem noModule_kindIndex (root : Path) (kind : EntityKind) :
    NoModule root (locationOf ((kindPath root kind).child indexName).pieces) := by
  rw [indexPath_pieces, locationOf_placeOf root kind (by decide)]
  exact fun other file hf hp => hf (placeOf_injective hp).2

theorem noModule_rootIndex (root : Path) :
    NoModule root (locationOf (root.child indexName).pieces) := by
  rw [rootIndex_pieces, locationOf_of_enters (by decide), Path.locationOf_stem]
  intro kind file _ hp
  have h := List.append_cancel_left hp
  exact nomatch (List.cons.inj h).2

/-- A change where no module is. -/
theorem Tree.ChangesOnly.reindexed {l : Location} (h : t.ChangesOnly l u) (hl : NoModule root l) :
    Reindexed root t u :=
  ⟨h.directory, fun kind file bytes hf => h.file _ bytes (hl kind file hf)⟩

/-- An index that is written. -/
theorem reindexed_writeText {text : String} {overwrite done : Bool} (hp : p.pieces = pre ++ [name])
    (hn : Path.enters name = true) (hl : NoModule root (locationOf p.pieces))
    (h : (writeText p text overwrite : StateM Tree (Except FileError Bool)) t = (.ok done, u)) :
    Reindexed root t u := by
  rcases Tree.writeText_eq_ok hp hn h with ⟨a, hg, hw⟩ | ⟨rfl, -⟩
  · exact (hg.changesOnly (Tree.changesOnly_write hp hn hw)).reindexed hl
  · exact .refl root t

/-- A file is removed, or nothing happens. -/
theorem remove_state (p : Path) (t : Tree) :
    ((remove p : StateM Tree (Except FileError Unit)) t).2 = t ∨
      t.remove p = .ok ((remove p : StateM Tree (Except FileError Unit)) t).2 := by
  have hr : (remove p : StateM Tree (Except FileError Unit)) t =
    Tree.change (fun t => t.remove p) t := rfl
  rw [hr]
  cases h : t.remove p with
  | ok u => exact .inr (by rw [Tree.change_ok h])
  | error e => exact .inl (by rw [Tree.change_error h])

/-- An index that is removed. -/
theorem reindexed_remove (hp : p.pieces = pre ++ [name]) (hn : Path.enters name = true)
    (hl : NoModule root (locationOf p.pieces)) (t : Tree) :
    Reindexed root t ((remove p : StateM Tree (Except FileError Unit)) t).2 := by
  rcases remove_state p t with h | h
  · rw [h]
    exact .refl root t
  · exact (Tree.changesOnly_remove hp hn h).reindexed hl

theorem reindexed_writeIndex {lines : List String} {r : WriteReport}
    (hp : p.pieces = pre ++ [name]) (hn : Path.enters name = true)
    (hl : NoModule root (locationOf p.pieces))
    (h : (writeIndex p lines : StateM Tree WriteReport) t = (r, u)) (he : r.errors = []) :
    Reindexed root t u := by
  rw [writeIndex] at h
  by_cases hlines : lines.isEmpty = true
  · rw [if_pos hlines] at h
    obtain rfl : ((remove p : StateM Tree (Except FileError Unit)) t).2 = u := congrArg Prod.snd h
    exact reindexed_remove hp hn hl t
  · rw [if_neg hlines] at h
    have hr : .ofWrite p ((writeText p (String.join lines) true :
        StateM Tree (Except FileError Bool)) t).1 = r := congrArg Prod.fst h
    have hu : ((writeText p (String.join lines) true : StateM Tree (Except FileError Bool)) t).2 =
        u := congrArg Prod.snd h
    rw [← hr] at he
    obtain ⟨done, hdone⟩ := ofWrite_errors he
    exact reindexed_writeText hp hn hl (Prod.ext hdone hu)

/-- The lines of the index of a kind. -/
def kindLines (root : Path) (kind : EntityKind) (t : Tree) : List String :=
  (t.modules root kind).map fun f => exportLine f.stem

theorem writeKindIndex_run (root : Path) (kind : EntityKind) (t : Tree) :
    (writeKindIndex root kind : StateM Tree (WriteReport × Bool)) t =
      let done := (writeIndex ((kindPath root kind).child indexName) (kindLines root kind t) :
        StateM Tree WriteReport) t
      ((done.1, !(kindLines root kind t).isEmpty), done.2) := by
  rw [writeKindIndex, Tree.run_bind, Tree.looks_modules]
  rfl

/-- The indexes of some kinds, one after the other. -/
abbrev writeKindIndexes (root : Path) (kinds : List EntityKind) :
    StateM Tree (List (EntityKind × WriteReport × Bool)) :=
  kinds.mapM fun kind => return (kind, ← writeKindIndex root kind)

theorem writeKindIndexes_cons (root : Path) (kind : EntityKind) (kinds : List EntityKind)
    (t : Tree) :
    writeKindIndexes root (kind :: kinds) t =
      let first := (writeKindIndex root kind : StateM Tree (WriteReport × Bool)) t
      let others := writeKindIndexes root kinds first.2
      ((kind, first.1) :: others.1, others.2) := by
  rw [writeKindIndexes, List.mapM_cons]
  rfl

theorem reindexed_writeKindIndexes {kinds : List EntityKind}
    (he : ∀ r ∈ (writeKindIndexes root kinds t).1, r.2.1.errors = []) :
    Reindexed root t (writeKindIndexes root kinds t).2 := by
  induction kinds generalizing t with
  | nil => exact .refl root t
  | cons kind kinds ih =>
    rw [writeKindIndexes_cons] at he ⊢
    obtain ⟨hfirst, hothers⟩ := List.forall_mem_cons.1 he
    rw [writeKindIndex_run] at hfirst hothers ⊢
    refine .trans ?_ (ih hothers)
    exact reindexed_writeIndex (by rw [indexPath_pieces]) (by decide) (noModule_kindIndex root kind)
      rfl hfirst

theorem foldr_errors {reports : List (EntityKind × WriteReport × Bool)} {own : WriteReport}
    (h : (reports.foldr (fun r rest => r.2.1 ++ rest) own).errors = []) :
    (∀ r ∈ reports, r.2.1.errors = []) ∧ own.errors = [] := by
  induction reports with
  | nil => exact ⟨by simp, h⟩
  | cons r reports ih =>
    rw [List.foldr_cons, errors_append, List.append_eq_nil_iff] at h
    obtain ⟨hall, hown⟩ := ih h.2
    exact ⟨List.forall_mem_cons.2 ⟨h.1, hall⟩, hown⟩

/-- The lines of the index of a project. -/
def rootLines (reports : List (EntityKind × WriteReport × Bool)) : List String :=
  (reports.filter fun r => r.2.2).map fun r => exportLine (r.1.directory ++ "/index")

theorem writeIndexes_run (root : Path) (t : Tree) :
    (writeIndexes root : StateM Tree WriteReport) t =
      let kinds := writeKindIndexes root EntityKind.all t
      let own := (writeIndex (root.child indexName) (rootLines kinds.1) :
        StateM Tree WriteReport) kinds.2
      (kinds.1.foldr (fun r rest => r.2.1 ++ rest) own.1, own.2) :=
  rfl

/-- **The indexes leave the modules as they are.** -/
theorem reindexed_writeIndexes
    (he : ((writeIndexes root : StateM Tree WriteReport) t).1.errors = []) :
    Reindexed root t ((writeIndexes root : StateM Tree WriteReport) t).2 := by
  rw [writeIndexes_run] at he ⊢
  obtain ⟨hkinds, hown⟩ := foldr_errors he
  refine (reindexed_writeKindIndexes hkinds).trans ?_
  exact reindexed_writeIndex (by rw [rootIndex_pieces]) (by decide) (noModule_rootIndex root) rfl
    hown

/-! ## Where there are no modules -/

theorem Vacant.modules (h : Vacant root t) (kind : EntityKind) : t.modules root kind = [] := by
  rw [Tree.modules]
  cases hd : (kindPath root kind).listed with
  | none => rfl
  | some dir =>
    rw [List.map_eq_nil_iff, List.eq_nil_iff_forall_not_mem]
    intro file hm
    obtain ⟨-, bytes, hf⟩ := Tree.file_of_mem_files hd hm
    rw [placeOf, h kind.directory [file]] at hf
    cases hf

theorem Vacant.remove (h : Vacant root t) (hp : p.pieces = pre ++ [name])
    (hn : Path.enters name = true) :
    Vacant root ((FileSystem.remove p : StateM Tree (Except FileError Unit)) t).2 := by
  rcases remove_state p t with hr | hr
  · rw [hr]
    exact h
  · obtain ⟨-, hu⟩ := Tree.remove_eq_ok hp hn hr
    intro entry rest
    rw [hu, h entry rest, ite_self]

theorem Vacant.writeKindIndexes (h : Vacant root t) (kinds : List EntityKind) :
    Vacant root (writeKindIndexes root kinds t).2 ∧
      ∀ r ∈ (SchemaLoom.writeKindIndexes root kinds t).1, r.2.2 = false := by
  induction kinds generalizing t with
  | nil => exact ⟨h, fun r hr => absurd hr List.not_mem_nil⟩
  | cons kind kinds ih =>
    have hlines : kindLines root kind t = [] := by rw [kindLines, h.modules kind, List.map_nil]
    rw [writeKindIndexes_cons, writeKindIndex_run, hlines]
    have hv : Vacant root ((writeIndex ((kindPath root kind).child indexName) [] :
        StateM Tree WriteReport) t).2 :=
      h.remove (by rw [indexPath_pieces]) (by decide)
    exact ⟨(ih hv).1, List.forall_mem_cons.2 ⟨rfl, (ih hv).2⟩⟩

/-- **Where there are no modules there are no indexes.** -/
theorem Vacant.writeIndexes (h : Vacant root t) :
    Vacant root ((writeIndexes root : StateM Tree WriteReport) t).2 := by
  obtain ⟨hv, hnone⟩ := h.writeKindIndexes EntityKind.all
  have hlines : rootLines (SchemaLoom.writeKindIndexes root EntityKind.all t).1 = [] := by
    rw [rootLines, List.map_eq_nil_iff, List.filter_eq_nil_iff]
    exact fun r hr => by simp [hnone r hr]
  rw [writeIndexes_run]
  dsimp only
  rw [hlines]
  exact hv.remove (by rw [rootIndex_pieces]) (by decide)

theorem Vacant.find (h : Vacant root t) {last : String} (hp : p.pieces = root.stem ++ [last])
    (hn : Path.enters last = true) : ∃ e, t.find p = .error e := by
  cases hf : t.find p with
  | error e => exact ⟨e, rfl⟩
  | ok found =>
    obtain ⟨-, hl, hnode, -⟩ := Tree.find_eq_ok hf
    have hget := h last []
    rw [hp, locationOf_of_enters hn, Path.locationOf_stem] at hl
    rw [Tree.get?, ← hl, hnode] at hget
    cases hget

/-- **Where nothing is, there is no project.** -/
theorem Vacant.isProject (h : Vacant root t) : t.isProject root = false := by
  have hindex : t.isFile (root.child indexName) = false := by
    obtain ⟨e, he⟩ := h.find (p := root.child indexName) (by rw [rootIndex_pieces]) (by decide)
    rw [Tree.isFile, Tree.kind, he]
    rfl
  have hkinds : (EntityKind.all.any fun kind => t.isDirectory (kindPath root kind)) = false := by
    rw [List.any_eq_false]
    intro kind _
    obtain ⟨e, he⟩ := h.find (p := kindPath root kind) (by rw [kindPath_pieces])
      (enters_directory kind)
    rw [Tree.isDirectory, Tree.kind, he]
    exact Bool.false_ne_true
  rw [Tree.isProject, hindex, hkinds, Bool.or_self, Bool.and_false]

end SchemaLoom
