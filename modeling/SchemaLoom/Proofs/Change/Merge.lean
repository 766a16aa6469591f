/-
  Making some of the changes between two schemas.

  A change of the schema leaves the others (`Schema.exists_step`), so changes
  that are made one after the other leave those that are not made
  (`Schema.exists_merge`).

  * `Schema.merge_part`: after some of the changes, the others are left; after
    all of them, none.
-/
import SchemaLoom.Change.Policy
import SchemaLoom.Proofs.Change.Inside

namespace SchemaLoom

variable {α : Type} {c : Change}

/-! ## One change -/

namespace Shelf

variable (S : Shelf α) {old new : List α}

/-- The changes of the entities of one kind. -/
def changes (old new : List α) : List Change :=
  entityChanges S.kind S.label S.added S.removed S.name S.details S.inside old new

/-- How the changes of the entities of one kind are told. -/
def comparison : ListComparison α where
  name := S.name
  target s := ⟨S.kind, s, none⟩
  label := ChangeTarget.entity
  added x := .ofType S.added ⟨S.kind, S.name x.1, none⟩
    (S.label ++ " '" ++ S.name x.1 ++ "' " ++ "added") (S.details x.1)
  removed x := .ofType S.removed ⟨S.kind, S.name x.1, none⟩
    (S.label ++ " '" ++ S.name x.1 ++ "' " ++ "removed") (S.details x.1)
  inside := S.inside
  addedType := S.added
  removedType := S.removed
  insideTypes := S.insideTypes
  label_target _ := rfl
  key_added _ := rfl
  key_removed _ := rfl
  type_inside := S.type_inside
  label_inside o n c hc := (S.about_inside o n c hc).2
  apart := S.apart
  unplaced_removed _ _ _ := rfl

theorem changes_eq (old new : List α) : S.changes old new =
    S.comparison.additions old new ++ S.comparison.removals old new ++
      S.comparison.insides old new :=
  rfl

/-- A change of the entities of one kind, made in a schema, leaves the others. -/
theorem exists_step (ho : (old.map S.name).Nodup) (hn : (new.map S.name).Nodup)
    (hdo : ∀ o ∈ old, S.Distinct o) (hdn : ∀ n ∈ new, S.Distinct n)
    (hin : ∀ o n, S.Distinct o → S.Distinct n → c.IsIn (S.inside o n) → S.StepsInside c o n)
    (hc : c.IsIn (S.changes old new)) :
    ∃ bs, (∀ s, S.get s = old → c.apply s = .ok (S.put s bs)) ∧ (bs.map S.name).Nodup ∧
      (∀ b ∈ bs, S.Distinct b) ∧ Leaves c (S.changes old new) (S.changes bs new) := by
  rw [changes_eq, Change.isIn_append, Change.isIn_append, or_assoc] at hc
  have hstep := S.comparison.exists_step S.Distinct
    (fun f => ∀ s, c.apply s = (f (S.get s)).map (S.put s)) ho hn hdo hdn
    (fun n hm => S.inside_self n (hdn n hm)) hc
  obtain ⟨f, bs, hf, hbs, hdb, hs⟩ := hstep
    (fun a i he => ⟨_, S.apply_added c a (Change.type_eq he)
      (S.details_eq _ a (Change.details_like he)), fun ha => appendNew_eq_ok c.target ha⟩)
    (fun r hr i he => ⟨_, S.apply_removed c r (Change.type_eq he)
      (S.details_eq _ r (Change.details_like he)), by
        rw [show c.target.entity = S.name r from congrArg ChangeTarget.entity (Change.target_eq he)]
        exact removeFirst_eq_ok c.target (List.mem_map_of_mem hr) ho⟩)
    fun o hom n hnm hon hcin => by
      obtain ⟨f, b, hf, hb, hbn, hdb, hl⟩ := hin o n (hdo o hom) (hdn n hnm) hcin
      refine ⟨_, b, hf, ?_, hbn, hdb, hl⟩
      rw [← show S.name o = S.name n from hon]
      exact updateFirst_eq_ok c.target hom ho hb hbn
  refine ⟨bs, fun s hg => ?_, hs.nodup, hdb, (hs.additions.append hs.removals).append hs.insides⟩
  rw [hf, hg]
  exact map_eq_ok hbs

theorem kind_of_isIn (hc : c.IsIn (S.changes old new)) : c.target.kind = S.kind := by
  obtain ⟨d, hd, he⟩ := Change.isIn_iff.1 hc
  rw [Change.target_eq he]
  exact kind_entityChanges S.about_inside d hd

/-- A change of another kind leaves the changes as they are. -/
theorem leaves_changes (old new : List α) (hc : c.target.kind ≠ S.kind) :
    Leaves c (S.changes old new) (S.changes old new) := by
  refine leaves_of_key_ne (fun d hd he => hc ?_) rfl
  rw [← show d.target = c.target from congrArg Prod.snd he]
  exact kind_entityChanges S.about_inside d hd

end Shelf

theorem Schema.changesTo_eq (s new : Schema) : s.changesTo new =
    enumShelf.changes s.enums new.enums ++ helperShelf.changes s.helpers new.helpers ++
      tableShelf.changes s.tables new.tables :=
  rfl

/-- **A change can be made, and leaves the others.** -/
theorem Schema.exists_step {s new : Schema} (hs : s.Distinct) (hn : new.Distinct)
    (hc : c.IsIn (s.changesTo new)) :
    ∃ t, c.apply s = .ok t ∧ t.Distinct ∧ Leaves c (s.changesTo new) (t.changesTo new) := by
  simp only [changesTo_eq] at hc ⊢
  rw [Change.isIn_append, Change.isIn_append] at hc
  rcases hc with (hc | hc) | hc
  · have hk : c.target.kind = .enum := enumShelf.kind_of_isIn hc
    obtain ⟨bs, ha, hb, hd, hl⟩ := enumShelf.exists_step hs.enumNames hn.enumNames hs.enums hn.enums
      (fun _ _ => EnumDef.stepsInside) hc
    refine ⟨_, ha s rfl, { hs with enumNames := hb, enums := hd }, (hl.append ?_).append ?_⟩
    · exact helperShelf.leaves_changes _ _ (by rw [hk]; decide)
    · exact tableShelf.leaves_changes _ _ (by rw [hk]; decide)
  · have hk : c.target.kind = .helper := helperShelf.kind_of_isIn hc
    obtain ⟨bs, ha, hb, hd, hl⟩ := helperShelf.exists_step hs.helperNames hn.helperNames hs.helpers
      hn.helpers (fun _ _ => HelperDef.stepsInside) hc
    refine ⟨_, ha s rfl, { hs with helperNames := hb, helpers := hd }, .append (.append ?_ hl) ?_⟩
    · exact enumShelf.leaves_changes _ _ (by rw [hk]; decide)
    · exact tableShelf.leaves_changes _ _ (by rw [hk]; decide)
  · have hk : c.target.kind = .table := tableShelf.kind_of_isIn hc
    obtain ⟨bs, ha, hb, hd, hl⟩ := tableShelf.exists_step hs.tableNames hn.tableNames hs.tables
      hn.tables (fun _ _ => TableDef.stepsInside) hc
    refine ⟨_, ha s rfl, { hs with tableNames := hb, tables := hd }, .append (.append ?_ ?_) hl⟩
    · exact enumShelf.leaves_changes _ _ (by rw [hk]; decide)
    · exact helperShelf.leaves_changes _ _ (by rw [hk]; decide)

/-! ## One change after the other -/

theorem map_unplaced_filter (p : ChangeType × ChangeTarget → Bool) (cs : List Change) :
    (cs.filter fun d => p d.key).map Change.unplaced =
      (cs.map Change.unplaced).filter fun d => p d.key := by
  rw [List.filter_map]
  rfl

/-- Changes that are made one after the other, in whatever order, leave those
    that are not made. -/
theorem Schema.exists_merge {s new : Schema} {cs : List Change} (hs : s.Distinct)
    (hn : new.Distinct) (hcs : ∀ c ∈ cs, c.IsIn (s.changesTo new)) (hk : KeysApart cs) :
    ∃ m, s.merge cs = .ok m ∧ (m.changesTo new).map Change.unplaced =
      ((s.changesTo new).filter fun d => d.key ∉ cs.map Change.key).map Change.unplaced := by
  induction cs generalizing s with
  | nil => exact ⟨s, rfl, by simp⟩
  | cons c cs ih =>
    rw [KeysApart, List.map_cons, List.nodup_cons] at hk
    obtain ⟨hc, hcs⟩ := List.forall_mem_cons.1 hcs
    obtain ⟨t, ha, ht, hl⟩ := exists_step hs hn hc
    have hct : ∀ d ∈ cs, d.IsIn (t.changesTo new) := by
      intro d hd
      obtain ⟨e, he, hde⟩ := Change.isIn_iff.1 (hcs d hd)
      have hne : e.key ≠ c.key := fun hke =>
        hk.1 (hke ▸ Change.key_eq hde ▸ List.mem_map_of_mem hd)
      rw [Change.IsIn, hl, hde]
      exact List.mem_map_of_mem (List.mem_filter.2 ⟨he, by simpa using hne⟩)
    obtain ⟨m, hm, hmc⟩ := ih ht hct hk.2
    refine ⟨m, ?_, ?_⟩
    · rw [merge, List.foldlM_cons, ha]
      exact hm
    · rw [hmc, map_unplaced_filter (fun k => k ∉ cs.map Change.key), hl,
        ← map_unplaced_filter (fun k => k ∉ cs.map Change.key), List.filter_filter]
      refine congrArg _ (List.filter_congr fun d _ => ?_)
      rw [Bool.eq_iff_iff]
      simp [and_comm]

/-- The changes of a part are told from the others by their keys. -/
theorem filter_key_not_mem {cs part : List Change} (h : KeysApart cs) (hp : part.Sublist cs) :
    (cs.filter fun d => d.key ∉ part.map Change.key) = cs.filter fun d => d ∉ part := by
  refine List.filter_congr fun d hd => ?_
  rw [decide_eq_decide, not_iff_not]
  constructor
  · intro hk
    obtain ⟨e, he, hke⟩ := List.mem_map.1 hk
    exact List.inj_on_of_nodup_map h (hp.subset he) hd hke ▸ he
  · exact List.mem_map_of_mem

/-- Some of the changes can be made, and leave the others. -/
theorem Schema.exists_merge_sublist {old new : Schema} (ho : old.Distinct) (hn : new.Distinct)
    {part : List Change} (hp : part.Sublist (old.changesTo new)) :
    ∃ merged, old.merge part = .ok merged ∧ (merged.changesTo new).map Change.unplaced =
      ((old.changesTo new).filter fun d => d ∉ part).map Change.unplaced := by
  have hk := nodup_changesTo ho hn
  rw [← filter_key_not_mem hk hp]
  exact exists_merge ho hn (fun c hc => List.mem_map_of_mem (hp.subset hc)) (hk.sublist (hp.map _))

/-- **Some of the changes leave the others**: those that are made by choice, and
    those that a policy permits.  All of the changes leave nothing to change. -/
theorem Schema.merge_part {old new : Schema} (ho : old.Distinct) (hn : new.Distinct) :
    (∀ part, part.Sublist (old.changesTo new) → ∃ merged, old.merge part = .ok merged ∧
      (merged.changesTo new).map Change.unplaced =
        ((old.changesTo new).filter fun d => d ∉ part).map Change.unplaced) ∧
    (∀ policy : Policy, ∃ merged,
      old.merge (policy.partition (old.changesTo new)).1 = .ok merged ∧
      (merged.changesTo new).map Change.unplaced =
        (policy.partition (old.changesTo new)).2.map Change.unplaced) ∧
    ∃ merged, old.merge (old.changesTo new) = .ok merged ∧ merged.changesTo new = [] := by
  refine ⟨fun _ => exists_merge_sublist ho hn, fun policy => ?_, ?_⟩
  · rw [Policy.partition, List.partition_eq_filter_filter]
    obtain ⟨merged, hm, hl⟩ := exists_merge_sublist ho hn
      (List.filter_sublist (p := fun c => policy.permits c.impact))
    refine ⟨merged, hm, hl.trans (congrArg _ (List.filter_congr fun d hd => ?_))⟩
    rw [Bool.eq_iff_iff]
    simp [hd]
  · obtain ⟨merged, hm, hl⟩ := exists_merge_sublist ho hn (List.Sublist.refl _)
    refine ⟨merged, hm, List.map_eq_nil_iff.1 (hl.trans ?_)⟩
    rw [List.map_eq_nil_iff, List.filter_eq_nil_iff]
    exact fun d hd => by simpa using hd

/-- An enum with one value more, and a column that becomes NOT NULL and gets a
    default. -/
theorem Schema.merge_part_accounts :
    let old : Schema := {
      outputDir := "db"
      enums := [⟨"Role", ["admin"]⟩]
      tables := [{ name := "accounts", columns := [.ofEnum "role" "Role"] }] }
    let new : Schema := {
      outputDir := "db"
      enums := [⟨"Role", ["admin", "user"]⟩]
      tables := [{
        name := "accounts"
        columns := [((Column.ofEnum "role" "Role").notNull).withDefault (.text "user")] }] }
    (old.Distinct ∧ new.Distinct ∧ (old.changesTo new).map Change.type =
      [.enumValueAdded, .columnNotNullAdded, .columnDefaultChanged]) ∧
    (∀ part, part.Sublist (old.changesTo new) → ∃ merged, old.merge part = .ok merged ∧
      (merged.changesTo new).map Change.unplaced =
        ((old.changesTo new).filter fun d => d ∉ part).map Change.unplaced) ∧
    (∀ policy : Policy, ∃ merged,
      old.merge (policy.partition (old.changesTo new)).1 = .ok merged ∧
      (merged.changesTo new).map Change.unplaced =
        (policy.partition (old.changesTo new)).2.map Change.unplaced) ∧
    ∃ merged, old.merge (old.changesTo new) = .ok merged ∧ merged.changesTo new = [] := by
  intro old new
  have ho : old.Distinct :=
    ⟨by decide, by decide, by decide, by decide, nofun, fun t ht => by
      obtain rfl := List.mem_singleton.1 ht
      exact ⟨by decide, by decide⟩⟩
  have hn : new.Distinct :=
    ⟨by decide, by decide, by decide, by decide, nofun, fun t ht => by
      obtain rfl := List.mem_singleton.1 ht
      exact ⟨by decide, by decide⟩⟩
  exact ⟨⟨ho, hn, by decide⟩, merge_part ho hn⟩

end SchemaLoom
