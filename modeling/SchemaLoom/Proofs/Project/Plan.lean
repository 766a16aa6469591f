/-
  What a plan finds in the schema that its changes are merged into.

  A change is aimed (`Change.Aimed`) if its target is of the kind that its type
  is about and, where it adds an entity, names the one that it defines.

  * `Change.Aimed.proper`: an aimed change that can be made is proper;
  * `Footprint.Follows.exists_regenerate`: an affected entity is there, just
    once, and is what is generated anew;
  * `Schema.footprint_merge`: the footprint of changes and the schema that they
    are merged into keep in step.
-/
import SchemaLoom.Proofs.Project.Entities

namespace SchemaLoom

/-! ## Changes that are aimed -/

/-- The kind of entities that a type of changes is about, if there is only
    one. -/
def ChangeType.kind? : ChangeType → Option EntityKind
  | enumAdded | enumRemoved | enumValueAdded | enumValueRemoved => some .enum
  | helperAdded | helperRemoved | helperColumnAdded | helperColumnRemoved => some .helper
  | tableAdded | tableRemoved | tableColumnAdded | tableColumnRemoved | tableHelperAdded
  | tableHelperRemoved | compositePrimaryKeyChanged | tableDbNameChanged => some .table
  | columnTypeChanged | columnPrimaryKeyChanged | columnNotNullAdded | columnNotNullRemoved
  | columnDefaultChanged | columnReferenceChanged => none

/-- Whether a type of changes adds an entity. -/
def ChangeType.addsEntity : ChangeType → Bool
  | enumAdded | helperAdded | tableAdded => true
  | _ => false

/-- The target of a change is of the kind that its type is about, and an entity
    that is added is the one that the target names. -/
structure Change.Aimed (c : Change) : Prop where
  kind : ∀ kind, c.type.kind? = some kind → c.target.kind = kind
  name : c.type.addsEntity = true → ∀ name, c.details.defined? = some name →
    name = c.target.entity

section
variable {c : Change} {s s' : Schema}

/-- A change that can be made has details about the entities that its type is
    about. -/
theorem Change.kind?_of_apply (h : c.apply s = .ok s') {kind : EntityKind}
    (hk : c.details.kind? = some kind) : c.type.kind? = some kind := by
  obtain ⟨type, category, impact, target, description, details⟩ := c
  cases details with
  | column | columnChange => cases hk
  | _ =>
    cases type <;> simp_all [apply, ChangeType.kind?, ChangeDetails.kind?]

/-- A change that can be made and defines an entity adds or removes it. -/
theorem Change.addsEntity_of_apply (h : c.apply s = .ok s') {name : String}
    (hd : c.details.defined? = some name) (hr : c.type.removesEntity = false) :
    c.type.addsEntity = true := by
  obtain ⟨type, category, impact, target, description, details⟩ := c
  cases details with
  | enum | helper | table =>
    cases type <;> simp_all [apply, ChangeType.removesEntity, ChangeType.addsEntity]
  | _ => cases hd

/-- **An aimed change that can be made is proper.** -/
theorem Change.Aimed.proper (hc : c.Aimed) (h : c.apply s = .ok s') : c.Proper where
  kind _ hk := hc.kind _ (kind?_of_apply h hk)
  name hr _ hd := hc.name (addsEntity_of_apply h hd hr) _ hd

end

/-- Each of the changes that are merged can be made at its turn. -/
theorem Schema.exists_apply_of_merge {changes : List Change} {base merged : Schema}
    (hm : base.merge changes = .ok merged) {c : Change} (hc : c ∈ changes) :
    ∃ s s', c.apply s = .ok s' := by
  induction changes generalizing base with
  | nil => cases hc
  | cons d changes ih =>
    rw [merge, List.foldlM_cons] at hm
    obtain ⟨next, hd, hm⟩ := bind_eq_ok.1 hm
    rcases List.mem_cons.1 hc with rfl | hc
    · exact ⟨base, next, hd⟩
    · exact ih hm hc

/-! ## Entities that are generated anew -/

/-- An entity that is there is generated anew, or another one of its kind and
    name before it. -/
theorem Schema.exists_regenerate {s : Schema} {e : Entity} (he : e ∈ s.entities) :
    ∃ e' ∈ s.entities, e'.ref = e.ref ∧
      s.regenerate e.ref = e'.generate.mapError .notGenerated := by
  simp only [entities, List.mem_append, List.mem_map] at he ⊢
  rcases he with (⟨d, hd, rfl⟩ | ⟨d, hd, rfl⟩) | ⟨d, hd, rfl⟩
  · obtain ⟨d', hd', hn, hf⟩ := exists_find?_name EnumDef.name hd
    refine ⟨.enum d', .inl (.inl ⟨d', hd', rfl⟩), by simp [hn], ?_⟩
    simp only [regenerate, Entity.ref_enum, enum?, hf]
    rfl
  · obtain ⟨d', hd', hn, hf⟩ := exists_find?_name HelperDef.name hd
    refine ⟨.helper d', .inl (.inr ⟨d', hd', rfl⟩), by simp [hn], ?_⟩
    simp only [regenerate, Entity.ref_helper, helper?, hf]
    rfl
  · obtain ⟨d', hd', hn, hf⟩ := exists_find?_name TableDef.name hd
    refine ⟨.table d', .inr ⟨d', hd', rfl⟩, by simp [hn], ?_⟩
    simp only [regenerate, Entity.ref_table, table?, hf]
    rfl

/-- Entities of a kind and name are there exactly if they are counted. -/
theorem Schema.exists_entity_iff {s : Schema} {r : EntityRef} :
    (∃ e ∈ s.entities, e.ref = r) ↔ s.countRef r ≠ 0 := by
  rw [countRef, ← Nat.pos_iff_ne_zero, List.count_pos_iff, List.mem_map]

/-- If the names of each kind are different, an entity is there at most once. -/
theorem Schema.countRef_le_one_of_nodup {s : Schema} (h : ∀ kind, (s.namesOf kind).Nodup)
    (r : EntityRef) : s.countRef r ≤ 1 := by
  rw [show r = ⟨r.kind, r.name⟩ from rfl, countRef_eq]
  exact List.nodup_iff_count_le_one.1 (h r.kind) r.name

/-! ## Plans -/

namespace Footprint

variable {f : Footprint} {base merged : Schema} {r : EntityRef}

/-- No entity is both there and gone. -/
theorem Follows.disjoint (h : f.Follows base merged) (ha : r ∈ f.affected) : r ∉ f.removed := by
  intro hr
  have h0 := h.removed r hr
  rw [h.affected r ha] at h0
  exact absurd h0 (by decide)

/-- **An affected entity is there and is the one that is generated anew.** -/
theorem Follows.exists_regenerate (h : f.Follows base merged) (ha : r ∈ f.affected) :
    ∃ e, (∀ e' ∈ merged.entities, e'.ref = r ↔ e' = e) ∧ e ∈ merged.entities ∧
      merged.regenerate r = e.generate.mapError .notGenerated := by
  have hone := h.affected r ha
  obtain ⟨e, he, rfl⟩ := Schema.exists_entity_iff.2 (hone ▸ Nat.one_ne_zero)
  obtain ⟨e', he', href, hg⟩ := Schema.exists_regenerate he
  obtain rfl := Schema.eq_of_countRef hone he' he href rfl
  refine ⟨e', fun d hd => ⟨fun hr => ?_, fun hr => hr ▸ rfl⟩, he', hg⟩
  exact Schema.eq_of_countRef hone hd he' hr rfl

end Footprint

/-- **The footprint of changes keeps in step with what they are merged into.**
    No entity is both affected and removed; an affected one is there, just once,
    and is what is generated anew, so that a plan never misses one; a removed one
    is gone; and all others are as they were. -/
theorem Schema.footprint_merge {base merged : Schema} {changes : List Change}
    (hbase : ∀ kind, (base.namesOf kind).Nodup) (haimed : ∀ c ∈ changes, c.Aimed)
    (hm : base.merge changes = .ok merged) :
    let f := Footprint.ofChanges changes
    (∀ r ∈ f.affected, r ∉ f.removed) ∧
    (∀ r ∈ f.affected, ∃ e, (∀ e' ∈ merged.entities, e'.ref = r ↔ e' = e) ∧
      e ∈ merged.entities ∧ merged.regenerate r = e.generate.mapError .notGenerated) ∧
    (∀ r, Plan.ofChanges base changes ≠ .error (.missing r)) ∧
    (∀ r ∈ f.removed, ∀ e ∈ merged.entities, e.ref ≠ r) ∧
    merged.entities.filter (fun e => e.ref ∉ f.affected ∧ e.ref ∉ f.removed) =
      base.entities.filter fun e => e.ref ∉ f.affected ∧ e.ref ∉ f.removed := by
  intro f
  have hproper : ∀ c ∈ changes, c.Proper := by
    intro c hc
    obtain ⟨s, s', hs⟩ := exists_apply_of_merge hm hc
    exact (haimed c hc).proper hs
  have hf : f.Follows base merged :=
    Footprint.follows_of_merge hproper (fun c _ => countRef_le_one_of_nodup hbase c.entity) hm
  refine ⟨fun r hr => hf.disjoint hr, fun r hr => hf.exists_regenerate hr, ?_, ?_, ?_⟩
  · intro r hplan
    simp only [Plan.ofChanges, hm, Except.mapError, bind, Except.bind] at hplan
    split at hplan
    next e he =>
      obtain rfl := Except.error.inj hplan
      obtain ⟨r', hr', hmissing⟩ := exists_of_mapM_eq_error he
      have ha := (inEntityOrder_perm f.affected).mem_iff.1 hr'
      obtain ⟨e, -, -, hg⟩ := hf.exists_regenerate ha
      rw [hg] at hmissing
      cases hgen : e.generate <;> rw [hgen] at hmissing <;> cases hmissing
    next => cases hplan
  · intro r hr e he href
    exact exists_entity_iff.1 ⟨e, he, href⟩ (hf.removed r hr)
  · have hothers := hf.others
    simpa only [Footprint.touched, List.mem_append, not_or] using hothers

/-- A table is removed and added again with one column more, an enum is removed,
    and a helper is left alone. -/
theorem Schema.footprint_merge_users :
    let base : Schema := {
      outputDir := "db"
      enums := [⟨"Role", ["admin"]⟩]
      helpers := [⟨"Dated", [.ofType "day" .date]⟩]
      tables := [{ name := "users", columns := [.ofType "id" .uuid] }] }
    let users : TableDef := { name := "users", columns := [.ofType "id" .uuid, .ofType "email" .text] }
    let changes : List Change := [
      .ofType .tableRemoved ⟨.table, "users", none⟩ "Table 'users' removed"
        (.table { name := "users" }),
      .ofType .enumRemoved ⟨.enum, "Role", none⟩ "Enum 'Role' removed" (.enum ⟨"Role", []⟩),
      .ofType .tableAdded ⟨.table, "users", none⟩ "Table 'users' added" (.table users)]
    let merged : Schema := {
      outputDir := "db", helpers := [⟨"Dated", [.ofType "day" .date]⟩], tables := [users] }
    let f := Footprint.ofChanges changes
    ((∀ kind, (base.namesOf kind).Nodup) ∧ (∀ c ∈ changes, c.Aimed) ∧
      base.merge changes = .ok merged) ∧
    (∀ r ∈ f.affected, r ∉ f.removed) ∧
    (∀ r ∈ f.affected, ∃ e, (∀ e' ∈ merged.entities, e'.ref = r ↔ e' = e) ∧
      e ∈ merged.entities ∧ merged.regenerate r = e.generate.mapError .notGenerated) ∧
    (∀ r, Plan.ofChanges base changes ≠ .error (.missing r)) ∧
    (∀ r ∈ f.removed, ∀ e ∈ merged.entities, e.ref ≠ r) ∧
    merged.entities.filter (fun e => e.ref ∉ f.affected ∧ e.ref ∉ f.removed) =
      base.entities.filter fun e => e.ref ∉ f.affected ∧ e.ref ∉ f.removed := by
  intro base users changes merged f
  have hbase : ∀ kind, (base.namesOf kind).Nodup := by
    intro kind
    cases kind <;> decide
  have haimed : ∀ c ∈ changes, c.Aimed := by
    simp only [changes, List.forall_mem_cons]
    refine ⟨⟨?_, ?_⟩, ⟨?_, ?_⟩, ⟨?_, ?_⟩, by simp⟩
    · exact fun _ h => Option.some.inj h
    · exact nofun
    · exact fun _ h => Option.some.inj h
    · exact nofun
    · exact fun _ h => Option.some.inj h
    · exact fun _ _ h => (Option.some.inj h).symm
  have hm : base.merge changes = .ok merged := by decide
  exact ⟨⟨hbase, haimed, hm⟩, footprint_merge hbase haimed hm⟩

end SchemaLoom
