/-
  The order that a full merge gives to columns, values and helper references.

  Additions are put at their places in the new list while what is removed still
  stands in the old one.  The old list then fills the places between them
  (`woven`), and the removals close the gaps they leave.

  * `woven_eq_iff`: the result is the new list exactly if the lists are aligned
    (`Aligned`);
  * `Schema.merge_order`: so it is for every list that a full merge changes.
-/
import Mathlib.Data.List.Perm.Subperm
import SchemaLoom.Proofs.Change.InsideReplay

namespace SchemaLoom

/-! ## Names that are woven -/

/-- The names `old` with those of `new` that are not in `present` put at their
    places in `new`. -/
def woven (present : List String) : List String → List String → List String
  | old, [] => old
  | old, n :: new =>
    if n ∈ present then
      match old with
      | [] => woven present [] new
      | o :: old => o :: woven present old new
    else n :: woven present old new

section
variable {present old new pre post : List String} {a : String}

theorem woven_cons_new (ha : a ∉ present) (old new : List String) :
    woven present old (a :: new) = a :: woven present old new := by
  cases old <;> rw [woven, if_neg ha]

theorem woven_cons_kept (ha : a ∈ present) (o : String) (old new : List String) :
    woven present (o :: old) (a :: new) = o :: woven present old new := by
  rw [woven, if_pos ha]

/-- Where nothing is added, the old names stay. -/
theorem woven_of_subset (h : new ⊆ present) (old : List String) : woven present old new = old := by
  induction new generalizing old with
  | nil => cases old <;> rfl
  | cons n new ih =>
    rw [List.cons_subset] at h
    cases old with
    | nil => rw [woven, if_pos h.1, ih h.2]
    | cons o old => rw [woven_cons_kept h.1, ih h.2]

theorem mem_woven : a ∈ woven present old new → a ∈ old ∨ a ∈ new := by
  induction new generalizing old with
  | nil =>
    intro h
    cases old <;> exact .inl h
  | cons n new ih =>
    intro h
    by_cases hn : n ∈ present
    · cases old with
      | nil =>
        rw [woven, if_pos hn] at h
        exact (ih h).imp_right (List.mem_cons_of_mem n)
      | cons o old =>
        rw [woven_cons_kept hn, List.mem_cons] at h
        rcases h with rfl | h
        · exact .inl List.mem_cons_self
        · exact (ih h).imp (List.mem_cons_of_mem o) (List.mem_cons_of_mem n)
    · rw [woven_cons_new hn, List.mem_cons] at h
      rcases h with rfl | h
      · exact .inr List.mem_cons_self
      · exact (ih h).imp_right (List.mem_cons_of_mem n)

/-- The old names stand in their order. -/
theorem filter_woven (h : old ⊆ present) : (woven present old new).filter (· ∈ present) = old := by
  have hself : ∀ old, old ⊆ present → old.filter (· ∈ present) = old := fun old h =>
    List.filter_eq_self.2 fun o ho => decide_eq_true (h ho)
  induction new generalizing old with
  | nil => cases old <;> exact hself _ h
  | cons n new ih =>
    by_cases hn : n ∈ present
    · cases old with
      | nil =>
        rw [woven, if_pos hn]
        exact ih h
      | cons o old =>
        rw [List.cons_subset] at h
        rw [woven_cons_kept hn, List.filter_cons_of_pos (by simpa using h.1), ih h.2]
    · rw [woven_cons_new hn, List.filter_cons_of_neg (by simpa using hn), ih h]

/-- As many old names stand before a place as names before it are kept. -/
theorem woven_append (h : (pre.filter (· ∈ present)).length ≤ old.length) :
    woven present old (pre ++ post) =
      woven present (old.take (pre.filter (· ∈ present)).length) pre ++
        woven present (old.drop (pre.filter (· ∈ present)).length) post := by
  induction pre generalizing old with
  | nil => simp [woven]
  | cons n pre ih =>
    by_cases hn : n ∈ present
    · rw [List.filter_cons_of_pos (by simpa using hn), List.length_cons] at h ⊢
      cases old with
      | nil => cases h
      | cons o old =>
        rw [List.cons_append, woven_cons_kept hn, List.take_succ_cons, woven_cons_kept hn,
          List.drop_succ_cons, ih (Nat.le_of_succ_le_succ h), List.cons_append]
    · rw [List.filter_cons_of_neg (by simpa using hn)] at h ⊢
      rw [List.cons_append, woven_cons_new hn, woven_cons_new hn, ih h, List.cons_append]

end

/-! ## Aligned lists -/

/-- What both lists have stands in one order, and what stands before an added
    element is, as far as it is kept, how the old list begins. -/
structure Aligned (old new : List String) : Prop where
  order : old.filter (· ∈ new) = new.filter (· ∈ old)
  front : ∀ pre a post, new = pre ++ a :: post → a ∉ old → pre.filter (· ∈ old) <+: old

section
variable {old new : List String}

/-- The part before an element that occurs once. -/
theorem append_cons_inj_left {pre post pre' post' : List String} {a : String}
    (h : pre ++ a :: post = pre' ++ a :: post') (hp : a ∉ pre) (hp' : a ∉ pre') : pre = pre' := by
  induction pre generalizing pre' with
  | nil =>
    cases pre' with
    | nil => rfl
    | cons b pre' => exact absurd ((List.cons.inj h).1 ▸ List.mem_cons_self) hp'
  | cons b pre ih =>
    cases pre' with
    | nil => exact absurd ((List.cons.inj h).1 ▸ List.mem_cons_self) hp
    | cons b' pre' =>
      obtain ⟨rfl, htail⟩ := List.cons.inj h
      rw [List.mem_cons, not_or] at hp hp'
      rw [ih htail hp.2 hp'.2]

theorem length_filter_le (hn : new.Nodup) : (new.filter (· ∈ old)).length ≤ old.length :=
  (List.subperm_of_subset (hn.filter _) fun _ ha => by
    simpa using (List.mem_filter.1 ha).2).length_le

/-- Lists that come out in the new order are aligned. -/
theorem aligned_of_woven_eq (hn : new.Nodup)
    (h : (woven old old new).filter (· ∈ new) = new) : Aligned old new := by
  have hcomm : ∀ xs : List String, (xs.filter (· ∈ new)).filter (· ∈ old) =
      (xs.filter (· ∈ old)).filter (· ∈ new) := fun xs => by
    rw [List.filter_filter, List.filter_filter]
    exact List.filter_congr fun a _ => Bool.and_comm _ _
  have hself : (woven old old new).filter (· ∈ old) = old := filter_woven (List.Subset.refl old)
  refine ⟨?_, fun pre a post hsplit ha => ?_⟩
  · rw [← hself, ← hcomm, hself, h]
  · have hle : (pre.filter (· ∈ old)).length ≤ old.length :=
      length_filter_le (hn.sublist (hsplit ▸ List.sublist_append_left pre (a :: post)))
    generalize hk : (pre.filter (· ∈ old)).length = k at hle
    have hw : woven old old new =
        woven old (old.take k) pre ++ a :: woven old (old.drop k) post := by
      rw [hsplit, woven_append (hk ▸ hle), hk, woven_cons_new ha]
    have hapre : a ∉ pre := by
      rw [hsplit, List.nodup_middle, List.nodup_cons, List.mem_append, not_or] at hn
      exact hn.1.1
    have hfirst : (woven old (old.take k) pre).filter (· ∈ new) = pre := by
      have hanew : a ∈ new := hsplit ▸ List.mem_append_right pre List.mem_cons_self
      rw [hw, List.filter_append, List.filter_cons_of_pos (by simpa using hanew)] at h
      refine append_cons_inj_left (h.trans hsplit) (fun hm => ?_) hapre
      rcases mem_woven (List.mem_of_mem_filter hm) with hm | hm
      · exact ha (List.mem_of_mem_take hm)
      · exact hapre hm
    -- as many of the old names are kept as are taken, so all of them are
    have htaken : pre.filter (· ∈ old) = (old.take k).filter (· ∈ new) := by
      rw [← hfirst, hcomm, filter_woven (List.take_subset k old)]
    have hall : (old.take k).filter (· ∈ new) = old.take k := by
      refine List.filter_sublist.eq_of_length ?_
      rw [← htaken, hk, List.length_take, Nat.min_eq_left hle]
    rw [htaken, hall]
    exact List.take_prefix k old

/-- Aligned lists come out in the new order. -/
theorem woven_eq_of_aligned {present all : List String} (hn : new ⊆ all)
    (horder : old.filter (· ∈ all) = new.filter (· ∈ present))
    (hfront : ∀ pre a post, new = pre ++ a :: post → a ∉ present →
      pre.filter (· ∈ present) <+: old) :
    (woven present old new).filter (· ∈ all) = new := by
  induction new generalizing old with
  | nil => cases old <;> exact horder
  | cons n new ih =>
    rw [List.cons_subset] at hn
    by_cases hp : n ∈ present
    · rw [List.filter_cons_of_pos (by simpa using hp)] at horder
      by_cases hadd : ∃ a ∈ new, a ∉ present
      · obtain ⟨a, ha, hap⟩ := hadd
        obtain ⟨pre, post, rfl⟩ := List.append_of_mem ha
        have hpre := hfront (n :: pre) a post rfl hap
        rw [List.filter_cons_of_pos (by simpa using hp)] at hpre
        obtain ⟨rest, rfl⟩ := hpre
        rw [List.cons_append] at horder ⊢
        rw [List.filter_cons_of_pos (by simpa using hn.1)] at horder
        rw [woven_cons_kept hp, List.filter_cons_of_pos (by simpa using hn.1),
          ih hn.2 (List.cons.inj horder).2 fun pre' b post' hs hb => ?_]
        have hpre' := hfront (n :: pre') b post' (congrArg (n :: ·) hs) hb
        rw [List.filter_cons_of_pos (by simpa using hp), List.cons_append] at hpre'
        exact (List.cons_prefix_cons.1 hpre').2
      · have hsub : new ⊆ present := fun a ha => by
          by_contra hap
          exact hadd ⟨a, ha, hap⟩
        have hall : new.filter (· ∈ present) = new :=
          List.filter_eq_self.2 fun a ha => decide_eq_true (hsub ha)
        rw [woven_of_subset (List.cons_subset.2 ⟨hp, hsub⟩), horder, hall]
    · rw [List.filter_cons_of_neg (by simpa using hp)] at horder
      rw [woven_cons_new hp, List.filter_cons_of_pos (by simpa using hn.1),
        ih hn.2 horder fun pre a post hs ha => ?_]
      have hpre := hfront (n :: pre) a post (congrArg (n :: ·) hs) ha
      rwa [List.filter_cons_of_neg (by simpa using hp)] at hpre

/-- **Names that are woven come out in the new order exactly if the lists are
    aligned.** -/
theorem woven_eq_iff (hn : new.Nodup) :
    (woven old old new).filter (· ∈ new) = new ↔ Aligned old new :=
  ⟨aligned_of_woven_eq hn, fun h =>
    woven_eq_of_aligned (List.Subset.refl new) h.order h.front⟩

end

/-! ## A full merge -/

theorem insertAt_length (a : String) (front old : List String) :
    insertAt front.length a (front ++ old) = front ++ a :: old := by
  rw [insertAt, Nat.min_eq_left (by simp)]
  induction front with
  | nil => rfl
  | cons b front ih => rw [List.cons_append, List.length_cons, List.insertIdx_succ_cons, ih]; rfl

/-- The names are put at their places in the new list. -/
theorem inserted_eq_woven {old new present : List String} (front : List String)
    (h : (new.filter (· ∈ present)).length ≤ old.length) :
    inserted ((new.zipIdx front.length).filter fun x => x.1 ∉ present) (front ++ old) =
      front ++ woven present old new := by
  induction new generalizing old front with
  | nil => cases old <;> rfl
  | cons n new ih =>
    rw [List.zipIdx_cons]
    by_cases hn : n ∈ present
    · rw [List.filter_cons_of_pos (by simpa using hn), List.length_cons] at h
      rw [List.filter_cons_of_neg (by simpa using hn)]
      cases old with
      | nil => cases h
      | cons o old =>
        have ih := ih (front ++ [o]) (Nat.le_of_succ_le_succ h)
        simpa [woven_cons_kept hn] using ih
    · rw [List.filter_cons_of_neg (by simpa using hn)] at h
      have ih := ih (front ++ [n]) h
      rw [List.filter_cons_of_pos (by simpa using hn), inserted, List.foldl_cons, ← inserted,
        insertAt_length, woven_cons_new hn]
      simpa using ih

theorem insertAt_map {α β : Type} (f : α → β) (i : Nat) (a : α) (as : List α) :
    (insertAt i a as).map f = insertAt i (f a) (as.map f) := by
  rw [insertAt, insertAt, List.map_insertIdx, List.length_map]

theorem inserted_map {α β : Type} (f : α → β) (xs : List (α × Nat)) (as : List α) :
    (inserted xs as).map f = inserted (xs.map (Prod.map f id)) (as.map f) := by
  induction xs generalizing as with
  | nil => rfl
  | cons x xs ih =>
    rw [inserted, List.foldl_cons, ← inserted, ih, insertAt_map]
    rfl

theorem absentFrom_map {α : Type} (name : α → String) (ys xs : List α) :
    (absentFrom name ys xs).map (Prod.map name id) =
      ((xs.map name).zipIdx).filter fun x => x.1 ∉ ys.map name := by
  rw [List.zipIdx_map, List.filter_map, absentFrom]
  refine congrArg _ (List.filter_congr fun x _ => ?_)
  rw [Bool.eq_iff_iff]
  simp

namespace ListReplay

variable {α : Type} (M : ListReplay α) {old new : List α}

/-- All changes are made. -/
abbrev all : Change → Bool := fun _ => true

theorem mem_removedNames_all {s : String} : s ∈ M.removedNames all old new ↔
    s ∈ old.map M.name ∧ s ∉ new.map M.name := by
  have hm : M.removedNames all old new =
      (old.filter fun o => M.name o ∉ new.map M.name).map M.name := by
    rw [removedNames, List.filter_true, ← map_fst_absentFrom, List.map_map]
    rfl
  simp only [hm, List.mem_map, List.mem_filter, decide_eq_true_iff]
  constructor
  · rintro ⟨o, ⟨ho, hn⟩, rfl⟩
    exact ⟨⟨o, ho, rfl⟩, hn⟩
  · rintro ⟨⟨o, ho, rfl⟩, hn⟩
    exact ⟨o, ⟨ho, hn⟩, rfl⟩

/-- The names that a full merge leaves. -/
theorem map_name_members (hput : ∀ as x, M.put as x = insertAt x.2 x.1 as)
    (ho : (old.map M.name).Nodup) (hn : (new.map M.name).Nodup) :
    (M.members all old new old).map M.name =
      (woven (old.map M.name) (old.map M.name) (new.map M.name)).filter (· ∈ new.map M.name) := by
  have hext : ((M.addedItems all old new).foldl M.put old).map M.name =
      woven (old.map M.name) (old.map M.name) (new.map M.name) := by
    have hfold : (M.addedItems all old new).foldl M.put old =
        inserted (absentFrom M.name old new) old := by
      rw [addedItems, List.filter_true, inserted, funext fun as => funext (hput as)]
    have hlength : ((new.map M.name).filter (· ∈ old.map M.name)).length ≤
        (old.map M.name).length := length_filter_le hn
    rw [hfold, inserted_map, absentFrom_map]
    exact inserted_eq_woven [] hlength
  have hkeep : (fun a => decide (M.name a ∉ M.removedNames all old new)) =
      (fun s => decide (s ∉ M.removedNames all old new)) ∘ M.name := rfl
  rw [M.members_eq all ho hn, hkeep, ← List.filter_map, hext]
  refine List.filter_congr fun s hs => ?_
  rw [decide_eq_decide, mem_removedNames_all]
  have := mem_woven hs
  tauto

/-- **A full merge of a list gives the new order exactly if the lists are
    aligned.** -/
theorem map_name_members_eq_iff (hput : ∀ as x, M.put as x = insertAt x.2 x.1 as)
    (ho : (old.map M.name).Nodup) (hn : (new.map M.name).Nodup) :
    (M.members all old new old).map M.name = new.map M.name ↔
      Aligned (old.map M.name) (new.map M.name) := by
  rw [M.map_name_members hput ho hn, woven_eq_iff hn]

/-- Changes inside elements keep the names. -/
theorem map_name_replayed (p : Change → Bool) (result : α × α → α)
    (hres : ∀ q ∈ paired M.name old new, M.name (result q) = M.name q.2) :
    (M.replayed p result old new).map M.name = (M.members p old new old).map M.name := by
  rw [replayed, List.map_map]
  refine List.map_congr_left fun a _ => ?_
  rw [Function.comp_apply]
  cases hq : (paired M.name old new).find? fun q => M.name q.2 == M.name a with
  | none => rfl
  | some q =>
    have hname : M.name q.2 = M.name a := by simpa using List.find?_some hq
    exact (hres q (List.mem_of_find?_eq_some hq)).trans hname

theorem nodup_replayed (p : Change → Bool) (result : α × α → α)
    (hres : ∀ q ∈ paired M.name old new, M.name (result q) = M.name q.2)
    (ho : (old.map M.name).Nodup) (hn : (new.map M.name).Nodup) :
    ((M.replayed p result old new).map M.name).Nodup := by
  rw [M.map_name_replayed p result hres]
  exact M.nodup_members p ho hn

/-- What becomes of a pair of elements is found by its name. -/
theorem find?_replayed (p : Change → Bool) (result : α × α → α)
    (hres : ∀ q ∈ paired M.name old new, M.name (result q) = M.name q.2)
    (ho : (old.map M.name).Nodup) (hn : (new.map M.name).Nodup) {q : α × α}
    (hq : q ∈ paired M.name old new) :
    (M.replayed p result old new).find? (fun a => M.name a == M.name q.2) = some (result q) := by
  obtain ⟨hqo, hqn, hname⟩ := (mem_paired ho).1 hq
  refine (find?_name_eq_some (M.nodup_replayed p result hres ho hn)).2
    ⟨List.mem_map.2 ⟨q.1, ?_, ?_⟩, hres q hq⟩
  · refine (M.mem_members p ho hn).2 ⟨.inl hqo, fun hr => M.not_mem_of_mem_removedNames p hr ?_⟩
    exact hname ▸ List.mem_map_of_mem hqn
  · rw [M.find?_paired ho hn hq]
    rfl

end ListReplay

/-! ## Entities and schemas -/

theorem ListReplay.members_eq_iff (M : ListReplay String) (hid : M.name = id)
    (hput : ∀ as x, M.put as x = insertAt x.2 x.1 as) {old new : List String} (ho : old.Nodup)
    (hn : new.Nodup) : M.members ListReplay.all old new old = new ↔ Aligned old new := by
  have h : (old.map M.name).Nodup → (new.map M.name).Nodup → (_ ↔ _) :=
    M.map_name_members_eq_iff hput
  rw [hid] at h
  simp only [List.map_id] at h
  exact h ho hn

section
variable {kind : EntityKind} {entity : String} {added removed : ChangeType}
  {h : added ≠ removed ∧ added ∉ columnTypes ∧ removed ∉ columnTypes} {old new : List Column}

theorem columnReplay_name : (columnReplay kind entity added removed h).name = Column.name := rfl

/-- The columns that some of the changes leave. -/
theorem columnReplay_names (p : Change → Bool) (ho : (old.map Column.name).Nodup) :
    ((columnReplay kind entity added removed h).replayed p (Column.replayed p kind entity)
        old new).map Column.name =
      ((columnReplay kind entity added removed h).members p old new old).map Column.name := by
  refine (columnReplay kind entity added removed h).map_name_replayed p
    (Column.replayed p kind entity) fun q hq => ?_
  rw [columnReplay_name, Column.name_replayed]
  exact ((mem_paired ho).1 hq).2.2

theorem nodup_columnReplay (p : Change → Bool) (ho : (old.map Column.name).Nodup)
    (hn : (new.map Column.name).Nodup) :
    (((columnReplay kind entity added removed h).replayed p (Column.replayed p kind entity)
        old new).map Column.name).Nodup := by
  rw [columnReplay_names p ho]
  exact (columnReplay kind entity added removed h).nodup_members p ho hn

theorem columnReplay_names_eq_iff (ho : (old.map Column.name).Nodup)
    (hn : (new.map Column.name).Nodup) :
    ((columnReplay kind entity added removed h).replayed ListReplay.all
        (Column.replayed ListReplay.all kind entity) old new).map Column.name =
      new.map Column.name ↔ Aligned (old.map Column.name) (new.map Column.name) := by
  rw [columnReplay_names ListReplay.all ho]
  exact (columnReplay kind entity added removed h).map_name_members_eq_iff (fun _ _ => rfl) ho hn

end

namespace Schema

variable {old new : Schema} (p : Change → Bool) (ho : old.Distinct) (hn : new.Distinct)
include ho hn

theorem enum?_replayed {q : EnumDef × EnumDef}
    (hq : q ∈ paired EnumDef.name old.enums new.enums) :
    (old.replayed p new).enum? q.2.name = some (q.1.replayed p q.2) :=
  enumReplay.find?_replayed p (fun q => q.1.replayed p q.2)
    (fun _ hr => ((mem_paired ho.enumNames).1 hr).2.2) ho.enumNames hn.enumNames hq

theorem helper?_replayed {q : HelperDef × HelperDef}
    (hq : q ∈ paired HelperDef.name old.helpers new.helpers) :
    (old.replayed p new).helper? q.2.name = some (q.1.replayed p q.2) :=
  helperReplay.find?_replayed p (fun q => q.1.replayed p q.2)
    (fun _ hr => ((mem_paired ho.helperNames).1 hr).2.2) ho.helperNames hn.helperNames hq

theorem table?_replayed {q : TableDef × TableDef}
    (hq : q ∈ paired TableDef.name old.tables new.tables) :
    (old.replayed p new).table? q.2.name = some (q.1.replayed p q.2) :=
  tableReplay.find?_replayed p (fun q => q.1.replayed p q.2)
    (fun _ hr => ((mem_paired ho.tableNames).1 hr).2.2) ho.tableNames hn.tableNames hq

/-- **The order that a full merge gives.**  Every list that both schemas have
    comes out in the new order exactly if its two forms are aligned. -/
theorem merge_order : ∃ merged, old.merge (old.changesTo new) = .ok merged ∧
    (∀ q ∈ paired EnumDef.name old.enums new.enums, ∃ m, merged.enum? q.2.name = some m ∧
      (m.values = q.2.values ↔ Aligned q.1.values q.2.values)) ∧
    (∀ q ∈ paired HelperDef.name old.helpers new.helpers,
      ∃ m, merged.helper? q.2.name = some m ∧
        (m.columns.map Column.name = q.2.columns.map Column.name ↔
          Aligned (q.1.columns.map Column.name) (q.2.columns.map Column.name))) ∧
    ∀ q ∈ paired TableDef.name old.tables new.tables, ∃ m, merged.table? q.2.name = some m ∧
      (m.columns.map Column.name = q.2.columns.map Column.name ↔
        Aligned (q.1.columns.map Column.name) (q.2.columns.map Column.name)) ∧
      (m.helperReferences = q.2.helperReferences ↔
        Aligned q.1.helperReferences q.2.helperReferences) := by
  have hall : (old.changesTo new).filter ListReplay.all = old.changesTo new := List.filter_true _
  refine ⟨_, hall ▸ merge_changesTo ListReplay.all ho hn, fun q hq => ?_, fun q hq => ?_,
    fun q hq => ?_⟩
  · obtain ⟨hqo, hqn, -⟩ := (mem_paired ho.enumNames).1 hq
    refine ⟨_, enum?_replayed ListReplay.all ho hn hq, ?_⟩
    exact (valueReplay q.2.name).members_eq_iff rfl (fun _ _ => rfl) (ho.enums _ hqo)
      (hn.enums _ hqn)
  · obtain ⟨hqo, hqn, -⟩ := (mem_paired ho.helperNames).1 hq
    refine ⟨_, helper?_replayed ListReplay.all ho hn hq, ?_⟩
    exact columnReplay_names_eq_iff (ho.helpers _ hqo) (hn.helpers _ hqn)
  · obtain ⟨hqo, hqn, -⟩ := (mem_paired ho.tableNames).1 hq
    refine ⟨_, table?_replayed ListReplay.all ho hn hq,
      columnReplay_names_eq_iff (ho.tables _ hqo).columns (hn.tables _ hqn).columns, ?_⟩
    exact (referenceReplay q.2.name).members_eq_iff rfl (fun _ _ => rfl)
      (ho.tables _ hqo).helperReferences (hn.tables _ hqn).helperReferences

end Schema

/-- A column that is added behind one that stays, while another one that stands
    before both is removed: the order of what stays is the same, but the tables
    are not aligned. -/
theorem Schema.merge_order_users :
    let old : Schema := {
      outputDir := "db"
      tables := [{ name := "users", columns := [.ofType "legacy" .text, .ofType "id" .uuid] }] }
    let new : Schema := {
      outputDir := "db"
      tables := [{ name := "users", columns := [.ofType "id" .uuid, .ofType "email" .text] }] }
    (old.Distinct ∧ new.Distinct ∧ (["legacy", "id"].filter (· ∈ ["id", "email"]) =
      ["id", "email"].filter (· ∈ ["legacy", "id"]))) ∧
    ∃ merged, old.merge (old.changesTo new) = .ok merged ∧ ∃ m, merged.table? "users" = some m ∧
      m.columns.map Column.name ≠ ["id", "email"] := by
  intro old new
  have ho : old.Distinct := by decide
  have hn : new.Distinct := by decide
  have hpair : (⟨{ name := "users", columns := [.ofType "legacy" .text, .ofType "id" .uuid] },
      { name := "users", columns := [.ofType "id" .uuid, .ofType "email" .text] }⟩ :
        TableDef × TableDef) ∈ paired TableDef.name old.tables new.tables := by decide
  obtain ⟨merged, hm, -, -, htables⟩ := merge_order ho hn
  obtain ⟨m, hfound, hcolumns, -⟩ := htables _ hpair
  refine ⟨⟨ho, hn, by decide⟩, merged, hm, m, hfound, fun he => ?_⟩
  have hfront := (hcolumns.1 he).front ["id"] "email" [] rfl (by decide)
  exact absurd hfront (by decide)

end SchemaLoom
