/-
  One change made in the columns of a helper or a table.

  A change of a column sets only what its type names, so of the differences
  between two columns it takes away its own (`Column.exists_patch`).

  * `columnComparison`: the changes between two lists of columns;
  * `exists_columns_step`: one of them, made in the old list, leaves the others.
-/
import SchemaLoom.Proofs.Change.Remainder

namespace SchemaLoom

/-! ## Differences of a column -/

theorem present_cons (d : ChangeType × Bool × String) (ds : List (ChangeType × Bool × String)) :
    present (d :: ds) = (if d.2.1 then [(d.1, d.2.2)] else []) ++ present ds :=
  rfl

theorem filter_present (t : ChangeType) (ds : List (ChangeType × Bool × String)) :
    (present ds).filter (fun m => m.1 ≠ t) = present (ds.filter fun d => d.1 ≠ t) := by
  induction ds with
  | nil => rfl
  | cons d ds ih =>
    obtain ⟨s, needed, text⟩ := d
    rw [present_cons, List.filter_append, ih, List.filter_cons]
    by_cases hs : s = t <;> cases needed <;> simp [hs, present_cons]

theorem Column.kind_congr {a b : Column} (hn : a.name = b.name) (ht : a.typeName = b.typeName)
    (he : a.options.enumName = b.options.enumName) (hl : a.options.length = b.options.length) :
    a.kind = b.kind := by
  rw [kind, kind, hn, ht, he, hl]

theorem typeChanged_eq_false_of_eq {a b : Column} (hn : a.name = b.name)
    (ht : a.typeName = b.typeName) (he : a.options.enumName = b.options.enumName)
    (hl : a.options.length = b.options.length) :
    typeChanged a b = false := by
  rw [typeChanged, Column.kind_congr hn ht he hl, ht, he, hl]
  cases b.kind <;> simp

/-- The differences apart from those of a type are the same. -/
theorem present_eq_filter {t : ChangeType} {ds es : List (ChangeType × Bool × String)}
    (h : es.filter (fun d => d.1 ≠ t) = ds.filter fun d => d.1 ≠ t)
    (ht : ∀ e ∈ es, e.1 = t → e.2.1 = false) :
    present es = (present ds).filter fun m => m.1 ≠ t := by
  rw [filter_present, ← h]
  clear h
  induction es with
  | nil => rfl
  | cons e es ih =>
    rw [List.forall_mem_cons] at ht
    by_cases he : e.1 = t
    · rw [List.filter_cons_of_neg (by simpa using he), present_cons, ih ht.2, ht.1 he]
      rfl
    · rw [List.filter_cons_of_pos (by simpa using he), present_cons, present_cons, ih ht.2]

/-- A column that has no difference of a type, and otherwise those of another one, has
    its modifications apart from that type. -/
theorem columnModifications_eq_filter {label : String} {t : ChangeType} {a b n : Column}
    (h : (columnDifferences label b n).filter (fun d => d.1 ≠ t) =
      (columnDifferences label a n).filter fun d => d.1 ≠ t)
    (ht : ∀ d ∈ columnDifferences label b n, d.1 = t → d.2.1 = false) :
    columnModifications label b n = (columnModifications label a n).filter fun m => m.1 ≠ t := by
  rw [columnModifications_eq, columnModifications_eq]
  exact present_eq_filter h ht

theorem notNullAdded_mem {label : String} {o n : Column} :
    .columnNotNullAdded ∈ (columnModifications label o n).map Prod.fst ↔
      o.options.notNull = false ∧ n.options.notNull = true := by
  rw [columnModifications_eq]
  simp [present, columnDifferences]

theorem notNullRemoved_mem {label : String} {o n : Column} :
    .columnNotNullRemoved ∈ (columnModifications label o n).map Prod.fst ↔
      o.options.notNull = true ∧ n.options.notNull = false := by
  rw [columnModifications_eq]
  simp [present, columnDifferences]

/-- A patch takes away the change that it makes, and no other. -/
theorem Column.exists_patch {label : String} {t : ChangeType} {o n : Column}
    (target : ChangeTarget) (he : o.name = n.name)
    (h : t ∈ (columnModifications label o n).map Prod.fst) :
    ∃ b, Column.patch t target n o = .ok b ∧ b.name = o.name ∧
      columnModifications label b n = (columnModifications label o n).filter fun m => m.1 ≠ t := by
  have ht := (map_fst_columnModifications label o n).subset h
  simp only [columnTypes, List.mem_cons, List.not_mem_nil, or_false] at ht
  rcases ht with rfl | rfl | rfl | rfl | rfl | rfl
  · refine ⟨_, rfl, rfl, columnModifications_eq_filter rfl ?_⟩
    have hs : ∀ b : Column, b.name = n.name → b.typeName = n.typeName →
        b.options.enumName = n.options.enumName → b.options.length = n.options.length →
        typeChanged b n = false := fun b => typeChanged_eq_false_of_eq
    simp [columnDifferences, hs, he]
  · exact ⟨_, rfl, rfl, columnModifications_eq_filter rfl (by simp [columnDifferences])⟩
  -- A column is made required, or is made optional, so the other of the two is not there before.
  · obtain ⟨ho, hn⟩ := notNullAdded_mem.1 h
    refine ⟨_, rfl, rfl, columnModifications_eq_filter ?_ (by simp [columnDifferences])⟩
    simp only [columnDifferences, ho, hn]
    rfl
  · obtain ⟨ho, hn⟩ := notNullRemoved_mem.1 h
    refine ⟨_, rfl, rfl, columnModifications_eq_filter ?_ (by simp [columnDifferences])⟩
    simp only [columnDifferences, ho, hn]
    rfl
  · exact ⟨_, rfl, rfl, columnModifications_eq_filter rfl (by simp [columnDifferences])⟩
  · exact ⟨_, rfl, rfl, columnModifications_eq_filter rfl (by simp [columnDifferences])⟩

/-- The same for the changes of a column. -/
theorem Column.exists_step {kind : EntityKind} {entity : String} {c : Change} {o n : Column}
    (he : o.name = n.name) (hc : c.IsIn (columnChanges kind entity o n)) :
    ∃ b, Column.patch c.type c.target n o = .ok b ∧ b.name = o.name ∧
      Leaves c (columnChanges kind entity o n) (columnChanges kind entity b n) := by
  obtain ⟨d, hd, hcd⟩ := Change.isIn_iff.1 hc
  obtain ⟨m, hm, rfl⟩ := List.mem_map.1 hd
  have ht : c.type = m.1 := Change.type_eq hcd
  have htm : c.type ∈ (columnModifications (entity ++ "." ++ n.name) o n).map Prod.fst :=
    ht.symm ▸ List.mem_map_of_mem hm
  obtain ⟨b, hb, hbn, hf⟩ := exists_patch c.target he htm
  refine ⟨b, hb, hbn, ?_⟩
  have hk : ∀ l : ChangeType × String, (Change.ofType l.1 ⟨kind, entity, some n.name⟩ l.2
      (.columnChange o n)).key ≠ c.key ↔ l.1 ≠ c.type := by
    intro l
    rw [Change.key_eq hcd, ht]
    simp [Change.key, Change.ofType]
  rw [Leaves, columnChanges, columnChanges, hf, List.map_map, List.filter_map, List.map_map]
  refine congrArg _ (List.filter_congr fun l _ => ?_)
  rw [Function.comp_apply, decide_eq_decide, hk]

/-! ## Lists of columns -/

theorem member_getD (kind : EntityKind) (entity member : String) :
    (ChangeTarget.mk kind entity (some member)).member.getD "" = member :=
  rfl

/-- The changes between two lists of columns. -/
def columnComparison (kind : EntityKind) (entity : String) (added removed : ChangeType)
    (h : added ≠ removed ∧ added ∉ columnTypes ∧ removed ∉ columnTypes) :
    ListComparison Column where
  name := Column.name
  target s := ⟨kind, entity, some s⟩
  label t := t.member.getD ""
  added := columnAddition kind entity added
  removed := columnRemoval kind entity removed
  inside := columnChanges kind entity
  addedType := added
  removedType := removed
  insideTypes := columnTypes
  label_target := member_getD kind entity
  key_added x := by rw [Change.key, columnAddition_type, columnAddition_target]
  key_removed _ := rfl
  type_inside _ _ := typesIn_columnChanges
  label_inside o n c hc := by
    obtain ⟨m, -, rfl⟩ := List.mem_map.1 hc
    rfl
  apart := h
  unplaced_removed _ _ _ := rfl

/-- A change of the columns of a helper or a table, made in the old list, leaves
    the others. -/
theorem exists_columns_step {kind : EntityKind} {entity : String} {added removed : ChangeType}
    {h : added ≠ removed ∧ added ∉ columnTypes ∧ removed ∉ columnTypes} {old new : List Column}
    {c : Change} (hadded : added = .helperColumnAdded ∨ added = .tableColumnAdded)
    (hremoved : removed = .helperColumnRemoved ∨ removed = .tableColumnRemoved)
    (ho : (old.map Column.name).Nodup) (hn : (new.map Column.name).Nodup)
    (hc : c.IsIn (memberColumnChanges kind entity added removed old new) ∨
      c.IsIn (pairedColumnChanges kind entity old new)) :
    ∃ f bs, (∀ s : Schema, c.apply s = s.updateColumns c.target f) ∧ f old = .ok bs ∧
      (columnComparison kind entity added removed h).Step c new old bs := by
  have hm : memberColumnChanges kind entity added removed old new =
      (columnComparison kind entity added removed h).additions old new ++
        (columnComparison kind entity added removed h).removals old new := rfl
  rw [hm, Change.isIn_append, or_assoc] at hc
  refine Exists.imp (fun f => Exists.imp fun bs hs => ⟨hs.1, hs.2.1, hs.2.2.2⟩)
    ((columnComparison kind entity added removed h).exists_step (fun _ => True)
      (fun f => ∀ s : Schema, c.apply s = s.updateColumns c.target f) ho hn (fun _ _ => trivial)
      (fun _ _ => trivial) (fun n _ => columnChanges_eq_nil.2 n.agrees_self) hc ?_ ?_ ?_)
  · intro a i he
    have hd : c.details.Like (columnAddition kind entity added (a, i)).details :=
      Change.details_like he
    rw [columnAddition_details] at hd
    obtain ⟨j, hd⟩ := hd
    have ht : c.type = added := (Change.type_eq he).trans (columnAddition_type _ _ _ _)
    refine ⟨insertNew (fun k => k.name == a.name) j a c.target, fun s => ?_, fun ha =>
      insertNew_eq_ok j c.target ha⟩
    rcases hadded with rfl | rfl <;> simp only [Change.apply, hd, ht]
  · intro r hr i he
    obtain ⟨j, hd⟩ : ∃ j, c.details = .column r j := Change.details_like he
    have ht : c.type = removed := Change.type_eq he
    refine ⟨removeFirst (fun k => k.name == r.name) c.target, fun s => ?_,
      removeFirst_eq_ok c.target (List.mem_map_of_mem hr) ho⟩
    rcases hremoved with rfl | rfl <;> simp only [Change.apply, hd, ht]
  · intro o hom n hnm (hon : o.name = n.name) hcin
    obtain ⟨b, hb, hbn, hl⟩ := Column.exists_step hon hcin
    obtain ⟨d, hd, he⟩ := Change.isIn_iff.1 hcin
    obtain ⟨m, -, rfl⟩ := List.mem_map.1 hd
    obtain ⟨k, hd⟩ : ∃ k, c.details = .columnChange k n := Change.details_like he
    have ht : c.target = ⟨kind, entity, some n.name⟩ := Change.target_eq he
    refine ⟨updateFirst (fun k => k.name == n.name) (Column.patch c.type c.target n) c.target, b,
      fun s => ?_, ?_, hbn, trivial, hl⟩
    · simp only [Change.apply, hd, ht, Option.getD_some]
    · rw [← hon]
      exact updateFirst_eq_ok c.target hom ho hb hbn

end SchemaLoom
