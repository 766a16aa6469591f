/-
  When the changes between canonical forms can be made in the schema as it is.

  A comparison reads canonical forms, but its changes are made in the schema
  that was read.  Names of entities, columns and helpers are the same in both;
  enum values are not, and a value or a helper may be listed twice.

  * `Schema.exists_merge_canonical`: for a valid target, the permitted changes
    can be made exactly if each enum and each table that both sides have can
    follow (`EnumDef.Follows`, `TableDef.Follows`).
-/
import SchemaLoom.Change.Policy
import SchemaLoom.Proofs.Change.InsideReplay
import SchemaLoom.Proofs.Schema.Canonical
import SchemaLoom.Proofs.Validation

namespace SchemaLoom

/-! ## Counting canonical forms -/

section
variable {α : Type} [DecidableEq α] {f : α → α} {xs : List α}

theorem count_le_count_map (hf : ∀ x, f (f x) = f x) (x : α) (xs : List α) :
    xs.count (f x) ≤ (xs.map f).count (f x) := by
  rw [List.count_eq_countP, List.count_eq_countP, List.countP_map]
  refine List.countP_mono_left fun y _ hy => ?_
  obtain rfl := beq_iff_eq.1 hy
  simp [hf]

/-- The images can be taken out one by one exactly if they are what is there. -/
theorem count_map_le_count_iff (hf : ∀ x, f (f x) = f x) (q : α → Bool) :
    (∀ x, ((xs.map f).filter q).count x ≤ xs.count x) ↔ ∀ x ∈ xs, q (f x) = true → f x = x := by
  constructor
  · intro h x hx hq
    by_contra hne
    have hle := h (f x)
    rw [List.count_filter hq] at hle
    obtain ⟨l, r, rfl⟩ := List.append_of_mem hx
    rw [List.map_append, List.map_cons, List.count_append, List.count_append, List.count_cons_self,
      List.count_cons_of_ne (Ne.symm hne)] at hle
    have hl := count_le_count_map hf x l
    have hr := count_le_count_map hf x r
    omega
  · intro h x
    by_cases hq : q x = true
    · rw [List.count_filter hq, List.count_eq_countP, List.count_eq_countP, List.countP_map]
      refine List.countP_mono_left fun y hy hfy => ?_
      obtain rfl := beq_iff_eq.1 hfy
      exact beq_iff_eq.2 (h y hy hq).symm
    · rw [List.count_eq_zero.2 fun hm => hq (List.mem_filter.1 hm).2]
      exact Nat.zero_le _

end

/-! ## What can follow -/

/-- An enum can take the values of another one: no value that is added is
    repeated, and those that are removed stand there in their canonical form. -/
structure EnumDef.Follows (policy : Policy) (current target : EnumDef) : Prop where
  additions : ∀ v, v ∉ current.canonical.values → target.canonical.values.count v ≤ 1
  removals : policy.allowBreaking = true → ∀ v ∈ current.values,
    Text.canonicalValue v ∉ target.canonical.values → Text.canonicalValue v = v

/-- A table can take the helpers of another one: none that is added is
    repeated. -/
def TableDef.Follows (current target : TableDef) : Prop :=
  ∀ h, h ∉ current.helperReferences → target.helperReferences.count h ≤ 1

/-! ## Inside an enum and a table -/

/-- The changes that a policy permits. -/
def Policy.lets (policy : Policy) (c : Change) : Bool := policy.permits c.impact

theorem Policy.partition_fst (policy : Policy) (cs : List Change) :
    (policy.partition cs).1 = cs.filter policy.lets := by
  rw [partition, List.partition_eq_filter_filter]
  rfl

/-- What only one of two lists of names has. -/
theorem map_absentFrom_id (old new : List String) :
    (absentFrom id old new).map (fun x => id x.1) = new.filter fun s => s ∉ old := by
  have h : (absentFrom id old new).map Prod.fst = _ := map_fst_absentFrom
  rw [List.map_id] at h
  exact h

/-- When the changes between two lists of names can be made, if additions are let
    through, and removals according to `b`. -/
theorem ListReplay.exists_foldlM_names (M : ListReplay String) (hid : M.name = id)
    {p : Change → Bool} {b : Bool} (hadd : ∀ x, p (M.added x) = true)
    (hrem : ∀ x, p (M.removed x) = b) {old new as : List String} :
    (∃ bs, ((M.additions old new ++ M.removals old new).filter p).foldlM M.make as = .ok bs) ↔
      NewNames (new.filter fun s => s ∉ old) as ∧
        (b = true → Covers as (old.filter fun s => s ∉ new)) := by
  have hadded : (M.addedItems p old new).map (fun x => M.name x.1) =
      new.filter fun s => s ∉ old := by
    rw [addedItems, List.filter_eq_self.2 fun x _ => hadd x, hid, map_absentFrom_id]
  have hremoved : M.removedNames p old new = if b then old.filter fun s => s ∉ new else [] := by
    rw [removedNames, funext hrem]
    cases b with
    | true => rw [List.filter_true, hid, map_absentFrom_id, if_pos rfl]
    | false => rw [List.filter_false]; rfl
  have hcovers : Covers as (if b then old.filter fun s => s ∉ new else []) ↔
      (b = true → Covers as (old.filter fun s => s ∉ new)) := by
    cases b with
    | true => simp
    | false => simp [Covers]
  have hmap : as.map M.name = as := by rw [hid, List.map_id]
  simp only [M.foldlM_members, hadded, hremoved, hmap, hcovers, exists_eq_right]

/-- Names that are added without repetition. -/
theorem newNames_iff {old new present : List String} (hp : ∀ s ∈ new, s ∈ present → s ∈ old) :
    NewNames (new.filter fun s => s ∉ old) present ↔ ∀ s, s ∉ old → new.count s ≤ 1 := by
  constructor
  · rintro ⟨hn, -⟩ s hs
    rw [List.nodup_iff_count_le_one] at hn
    rw [← List.count_filter (p := fun s => decide (s ∉ old)) (by simpa using hs)]
    exact hn s
  · intro h
    refine ⟨List.nodup_iff_count_le_one.2 fun s => ?_, fun s hs hsp => ?_⟩
    · by_cases hs : s ∈ old
      · rw [List.count_eq_zero.2 (by simp [hs])]
        exact Nat.zero_le _
      · rw [List.count_filter (by simpa using hs)]
        exact h s hs
    · obtain ⟨hs, ho⟩ := List.mem_filter.1 hs
      exact of_decide_eq_true ho (hp s hs hsp)

/-- **When an enum can take the values of another one.** -/
theorem EnumDef.exists_foldlM_iff (policy : Policy) (e f : EnumDef) :
    (∃ b, ((valueChanges e.canonical f.canonical).filter policy.lets).foldlM makeChange e = .ok b) ↔
      e.Follows policy f := by
  have hrun : (∃ vs, ((valueChanges e.canonical f.canonical).filter policy.lets).foldlM
      (makeName .enumValueAdded) e.values = .ok vs) ↔ _ :=
    (valueReplay f.canonical.name).exists_foldlM_names rfl (fun _ => rfl) fun _ => rfl
  have hvalue : ∀ v ∈ f.canonical.values, Text.canonicalValue v = v := by
    intro v hv
    obtain ⟨w, -, rfl⟩ := List.mem_map.1 hv
    exact Text.canonicalValue_canonicalValue w
  have hnew : NewNames (f.canonical.values.filter fun s => s ∉ e.canonical.values) e.values ↔ _ :=
    newNames_iff fun v hv hve => List.mem_map.2 ⟨v, hve, hvalue v hv⟩
  have hcovers : Covers e.values (e.canonical.values.filter fun s => s ∉ f.canonical.values) ↔ _ :=
    count_map_le_count_iff Text.canonicalValue_canonicalValue _
  simp only [decide_eq_true_iff] at hcovers
  simp only [foldlM_makeChange, exists_map_eq_ok]
  rw [hrun, hnew, hcovers]
  exact ⟨fun h => ⟨h.1, h.2⟩, fun h => ⟨h.additions, h.removals⟩⟩

theorem map_name_canonical (columns : List Column) :
    (columns.map Column.canonical).map Column.name = columns.map Column.name := by
  rw [List.map_map]
  exact List.map_congr_left fun c _ => c.canonical_name

/-- The columns of a helper can always follow. -/
theorem HelperDef.exists_foldlM (p : Change → Bool) (g h : HelperDef)
    (hh : (h.columns.map Column.name).Nodup) :
    ∃ b, ((helperChanges g.canonical h.canonical).filter p).foldlM makeChange g = .ok b := by
  have hrun : (∃ columns, ((helperChanges g.canonical h.canonical).filter p).foldlM
      (makeColumn .helperColumnAdded) g.columns = .ok columns) ↔ _ :=
    (helperColumnReplay h.name).exists_foldlM_changes p (map_name_canonical g.columns).symm
      (show ((h.columns.map Column.canonical).map Column.name).Nodup by rwa [map_name_canonical])
  simp only [foldlM_makeChange, exists_map_eq_ok]
  exact hrun.2 fun q _ c _ => ⟨_, Column.foldlM_columnChanges p .helper h.name q.1 q.2 c⟩

/-- **When a table can take the parts of another one**: its columns always
    can. -/
theorem TableDef.exists_foldlM_iff (policy : Policy) (t u : TableDef)
    (hu : (u.columns.map Column.name).Nodup) :
    (∃ b, ((tableChanges t.canonical u.canonical).filter policy.lets).foldlM makeChange t =
      .ok b) ↔ t.Follows u := by
  have hnames : t.columns.map Column.name = (t.columns.map Column.canonical).map Column.name :=
    (map_name_canonical t.columns).symm
  have hnodup : ((u.columns.map Column.canonical).map Column.name).Nodup := by
    rwa [map_name_canonical]
  have hmembers := (tableColumnReplay u.name).foldlM_members_of_names policy.lets hnames hnodup
  obtain ⟨columns, hpairs⟩ :=
    ((tableColumnReplay u.name).exists_foldlM_insides_members policy.lets hnames hnodup).2
      fun q _ c _ => ⟨_, Column.foldlM_columnChanges policy.lets .table u.name q.1 q.2 c⟩
  have hrefs : (∃ references, ((helperReferenceChanges t.canonical u.canonical).filter
      policy.lets).foldlM (makeName .tableHelperAdded) t.helperReferences = .ok references) ↔ _ :=
    (referenceReplay u.name).exists_foldlM_names rfl (fun _ => rfl) fun _ => rfl
  have hcovers : Covers t.helperReferences
      (t.canonical.helperReferences.filter fun h => h ∉ u.canonical.helperReferences) :=
    fun h => List.filter_sublist.count_le h
  have hfollows : t.Follows u ↔ _ := (newNames_iff fun _ _ h => h).symm
  rw [hfollows]
  constructor
  · rintro ⟨b, hb⟩
    obtain ⟨_, references, _, -, hr, -, -⟩ := (foldlM_makeChange policy.lets).1 hb
    exact (hrefs.1 ⟨references, hr⟩).1
  · intro h
    obtain ⟨references, hr⟩ := hrefs.2 ⟨h, fun _ => hcovers⟩
    exact ⟨_, (foldlM_makeChange policy.lets).2 ⟨_, _, _, hmembers, hr, hpairs, rfl⟩⟩

/-! ## Schemas -/

theorem paired_map {α : Type} {name : α → String} {f : α → α} (hf : ∀ x, name (f x) = name x)
    (old new : List α) :
    paired name (old.map f) (new.map f) = (paired name old new).map (Prod.map f f) := by
  rw [paired, paired, List.filterMap_map, List.map_filterMap]
  refine List.filterMap_congr fun n _ => ?_
  have hp : (fun o => name o == name (f n)) ∘ f = fun o => name o == name n := by
    funext o
    rw [Function.comp_apply, hf, hf]
  rw [Function.comp_apply, List.find?_map, hp, Option.map_map, Option.map_map]
  rfl

/-- The changes between canonical forms of the entities of one kind can be made
    exactly if those inside each entity can. -/
theorem Shelf.Makes.exists_foldlM_canonical {α : Type} {S : Shelf α}
    {inner : α → Change → Except MergeError α} (h : S.Makes inner) (p : Change → Bool)
    {f : α → α} (hf : ∀ x, S.name (f x) = S.name x) (old : List α) {new : List α}
    (hn : (new.map S.name).Nodup) :
    (∃ bs, ((S.changes (old.map f) (new.map f)).filter p).foldlM (S.replay h).make old = .ok bs) ↔
      ∀ q ∈ paired S.name old new, ∃ b, ((S.inside (f q.1) (f q.2)).filter p).foldlM inner q.1 =
        .ok b := by
  have hname : ∀ xs : List α, (xs.map f).map S.name = xs.map S.name := fun xs => by
    rw [List.map_map]
    exact List.map_congr_left fun x _ => hf x
  rw [changes_eq]
  refine ((S.replay h).exists_foldlM_changes p (hname old).symm
    (show ((new.map f).map S.name).Nodup by rwa [hname])).trans ?_
  have hpairs : paired (S.replay h).name (old.map f) (new.map f) =
      (paired S.name old new).map (Prod.map f f) := paired_map hf old new
  rw [hpairs, List.forall_mem_map]
  refine forall₂_congr fun q hq => ?_
  have hfirst : old.find? (fun a => S.name a == S.name (f q.2)) = some q.1 := by
    rw [hf]
    exact (of_mem_paired hq).1
  exact ⟨fun hall => hall q.1 hfirst,
    fun hex a ha => Option.some.inj (hfirst.symm.trans ha) ▸ hex⟩

/-- **When the permitted changes between canonical forms can be made.** -/
theorem Schema.exists_merge_canonical {current target : Schema}
    (hv : hasErrors target.validate = false) (policy : Policy) :
    (∃ merged, current.merge
        (policy.partition (current.canonical.changesTo target.canonical)).1 = .ok merged) ↔
      (∀ q ∈ paired EnumDef.name current.enums target.enums, q.1.Follows policy q.2) ∧
        ∀ q ∈ paired TableDef.name current.tables target.tables, q.1.Follows q.2 := by
  have henums := enumShelf_makes.exists_foldlM_canonical policy.lets (f := EnumDef.canonical)
    (fun _ => rfl) current.enums (nodup_namesOf hv .enum)
  have hhelpers := helperShelf_makes.exists_foldlM_canonical policy.lets (f := HelperDef.canonical)
    (fun _ => rfl) current.helpers (nodup_namesOf hv .helper)
  have htables := tableShelf_makes.exists_foldlM_canonical policy.lets (f := TableDef.canonical)
    (fun _ => rfl) current.tables (nodup_namesOf hv .table)
  rw [policy.partition_fst]
  constructor
  · rintro ⟨merged, hm⟩
    obtain ⟨enums, helpers, tables, he, hh, ht, -⟩ := merge_filter.1 hm
    refine ⟨fun q hq => ?_, fun q hq => ?_⟩
    · exact (EnumDef.exists_foldlM_iff policy q.1 q.2).1 (henums.1 ⟨enums, he⟩ q hq)
    · have hn := nodup_columns_of_table hv (of_mem_paired hq).2
      exact (TableDef.exists_foldlM_iff policy q.1 q.2 hn).1 (htables.1 ⟨tables, ht⟩ q hq)
  · rintro ⟨he, ht⟩
    obtain ⟨enums, he⟩ := henums.2 fun q hq =>
      (EnumDef.exists_foldlM_iff policy q.1 q.2).2 (he q hq)
    obtain ⟨helpers, hh⟩ := hhelpers.2 fun q hq => HelperDef.exists_foldlM policy.lets q.1 q.2
      (nodup_columns_of_helper hv (of_mem_paired hq).2)
    obtain ⟨tables, ht⟩ := htables.2 fun q hq => (TableDef.exists_foldlM_iff policy q.1 q.2
      (nodup_columns_of_table hv (of_mem_paired hq).2)).2 (ht q hq)
    exact ⟨_, merge_filter.2 ⟨enums, helpers, tables, he, hh, ht, rfl⟩⟩

/-- Two spellings of one value are valid, but the value cannot be added twice. -/
theorem Schema.exists_merge_canonical_spellings :
    let current : Schema := { outputDir := "db", enums := [⟨"Role", ["admin"]⟩] }
    let target : Schema :=
      { outputDir := "db", enums := [⟨"Role", ["admin", "team_lead", "teamLead"]⟩] }
    hasErrors target.validate = false ∧ ∀ policy : Policy, ¬∃ merged, current.merge
      (policy.partition (current.canonical.changesTo target.canonical)).1 = .ok merged := by
  intro current target
  have hv : hasErrors target.validate = false := by decide +kernel
  refine ⟨hv, fun policy hm => ?_⟩
  obtain ⟨henums, -⟩ := (exists_merge_canonical hv policy).1 hm
  have hpair : (⟨"Role", ["admin"]⟩, ⟨"Role", ["admin", "team_lead", "teamLead"]⟩) ∈
      paired EnumDef.name current.enums target.enums := by decide
  have hcount := (henums _ hpair).additions "team_lead" (by decide +kernel)
  exact absurd hcount (by decide +kernel)

end SchemaLoom
