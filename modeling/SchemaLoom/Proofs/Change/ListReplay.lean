/-
  Making the changes between two named lists, as far as a filter lets them
  through.

  A `ListReplay` adds to a comparison of lists how its changes are made.  The
  list in which they are made need not be the one that was compared: the changes
  may be told of its canonical form.

  * `ListReplay.foldlM_members`: when additions and removals can be made, and
    what they make;
  * `ListReplay.exists_foldlM_insides`: when the changes inside elements can;
  * `ListReplay.foldlM_changes`: the result for lists without repetition.
-/
import SchemaLoom.Proofs.Change.Remainder
import SchemaLoom.Proofs.Change.Runs

namespace SchemaLoom

/-- How the changes between two named lists are told and made. -/
structure ListReplay (α : Type) extends ListComparison α where
  /-- The list with an addition made in it. -/
  put : List α → α × Nat → List α
  make : List α → Change → Except MergeError (List α)
  /-- A change that is made inside an element. -/
  inner : α → Change → Except MergeError α
  addsTo_put : ∀ as x, AddsTo x.1 as (put as x)
  make_added : ∀ as x, make as (added x) =
    if as.any (fun a => name a == name x.1) then .error (.alreadyExists (added x).target)
    else .ok (put as x)
  make_removed : ∀ as x, make as (removed x) =
    removeFirst (fun a => name a == name x.1) (removed x).target as
  make_inside : ∀ o n, ∀ c ∈ inside o n, ∀ as, make as c =
    updateFirst (fun a => name a == name n) (inner · c) c.target as
  name_inner : ∀ a c b, inner a c = .ok b → name b = name a

namespace ListReplay

variable {α : Type} (M : ListReplay α) (p : Change → Bool) {old new as bs : List α}

/-- The additions that are let through. -/
def addedItems (old new : List α) : List (α × Nat) :=
  (absentFrom M.name old new).filter fun x => p (M.added x)

/-- The names of the removals that are let through. -/
def removedNames (old new : List α) : List String :=
  ((absentFrom M.name new old).filter fun x => p (M.removed x)).map fun x => M.name x.1

/-- The changes inside a pair of elements that are let through. -/
def insideOf (q : α × α) : List Change := (M.inside q.1 q.2).filter p

/-- The list after the additions and removals that are let through. -/
def members (old new as : List α) : List α :=
  erased M.name (M.removedNames p old new) ((M.addedItems p old new).foldl M.put as)

theorem name_added_mem {x : α × Nat} (h : x ∈ M.addedItems p old new) :
    x.1 ∈ new ∧ M.name x.1 ∉ old.map M.name := by
  obtain ⟨hx, ha⟩ := mem_absentFrom.1 (List.mem_of_mem_filter h)
  exact ⟨(List.mem_zipIdx' hx).2 ▸ List.getElem_mem _, ha⟩

theorem removedNames_sublist : (M.removedNames p old new).Sublist
    ((old.filter fun o => M.name o ∉ new.map M.name).map M.name) := by
  rw [← map_fst_absentFrom, List.map_map]
  exact List.filter_sublist.map _

theorem not_mem_of_mem_removedNames {s : String} (h : s ∈ M.removedNames p old new) :
    s ∉ new.map M.name := by
  obtain ⟨o, ho, rfl⟩ := List.mem_map.1 ((M.removedNames_sublist p).subset h)
  simpa using (List.mem_filter.1 ho).2

/-- Additions bring no name that is removed. -/
theorem covers_added (present : List String) :
    Covers (((M.addedItems p old new).map fun x => M.name x.1) ++ present)
        (M.removedNames p old new) ↔
      Covers present (M.removedNames p old new) := by
  refine forall_congr' fun s => ?_
  rw [List.count_append]
  by_cases hs : s ∈ (M.addedItems p old new).map fun x => M.name x.1
  · have hn : s ∉ M.removedNames p old new := by
      obtain ⟨x, hx, rfl⟩ := List.mem_map.1 hs
      exact fun hr => M.not_mem_of_mem_removedNames p hr
        (List.mem_map_of_mem (M.name_added_mem p hx).1)
    rw [List.count_eq_zero.2 hn]
    simp
  · rw [List.count_eq_zero.2 hs, Nat.zero_add]

theorem foldlM_additions_filter : ((M.additions old new).filter p).foldlM M.make as = .ok bs ↔
    NewNames ((M.addedItems p old new).map fun x => M.name x.1) (as.map M.name) ∧
      bs = (M.addedItems p old new).foldl M.put as := by
  rw [ListComparison.additions, List.filter_map, List.foldlM_map]
  exact foldlM_additions M.addsTo_put fun as x => M.make_added as x

theorem foldlM_removals_filter : ((M.removals old new).filter p).foldlM M.make as = .ok bs ↔
    Covers (as.map M.name) (M.removedNames p old new) ∧
      bs = erased M.name (M.removedNames p old new) as := by
  have hmake : (fun as x => M.make as (M.removed x)) = fun as x =>
      removeFirst (fun a => M.name a == M.name x.1) (M.removed x).target as :=
    funext fun as => funext fun x => M.make_removed as x
  rw [ListComparison.removals, List.filter_map, List.foldlM_map, hmake]
  exact foldlM_removals

/-- **When additions and removals can be made, and what they make.** -/
theorem foldlM_members :
    ((M.additions old new ++ M.removals old new).filter p).foldlM M.make as = .ok bs ↔
      (NewNames ((M.addedItems p old new).map fun x => M.name x.1) (as.map M.name) ∧
        Covers (as.map M.name) (M.removedNames p old new)) ∧ bs = M.members p old new as := by
  have hperm := (perm_foldl_put M.addsTo_put (M.addedItems p old new) as).map M.name
  rw [List.map_append, List.map_map] at hperm
  have hcov : Covers (((M.addedItems p old new).foldl M.put as).map M.name)
      (M.removedNames p old new) ↔ Covers (as.map M.name) (M.removedNames p old new) := by
    rw [← M.covers_added p (as.map M.name)]
    exact forall_congr' fun s => by rw [hperm.count_eq]; rfl
  rw [List.filter_append, List.foldlM_append, bind_eq_ok]
  constructor
  · rintro ⟨cs, hcs, h⟩
    obtain ⟨hn, rfl⟩ := (M.foldlM_additions_filter p).1 hcs
    obtain ⟨hc, hb⟩ := (M.foldlM_removals_filter p).1 h
    exact ⟨⟨hn, hcov.1 hc⟩, hb⟩
  · rintro ⟨⟨hn, hc⟩, hb⟩
    exact ⟨_, (M.foldlM_additions_filter p).2 ⟨hn, rfl⟩,
      (M.foldlM_removals_filter p).2 ⟨hcov.2 hc, hb⟩⟩

/-- The first element of a name that both lists have stays the first. -/
theorem find?_members {s : String} (ho : s ∈ old.map M.name) (hn : s ∈ new.map M.name)
    (as : List α) : (M.members p old new as).find? (fun a => M.name a == s) =
      as.find? fun a => M.name a == s := by
  rw [members, find?_erased fun hr => M.not_mem_of_mem_removedNames p hr hn]
  refine find?_foldl_put M.addsTo_put (fun hs => ?_) as
  obtain ⟨x, hx, rfl⟩ := List.mem_map.1 hs
  exact (M.name_added_mem p hx).2 ho

/-! ## Changes inside elements -/

/-- The changes inside one pair of elements, made in a list. -/
def updateOf (as : List α) (q : α × α) : Except MergeError (List α) :=
  (M.insideOf p q).foldlM M.make as

theorem updateOf_eq {q : α × α} {a : α} (h : as.find? (fun a => M.name a == M.name q.2) = some a) :
    M.updateOf p as q =
      ((M.insideOf p q).foldlM M.inner a).map fun b => exchanged M.name (M.name q.2) b as := by
  rw [updateOf, ← foldlM_updateFirst Change.target M.name_inner h]
  exact foldlM_congr (fun c hc as => M.make_inside _ _ c (List.mem_of_mem_filter hc) as) as

theorem foldlM_insides (as : List α) :
    ((M.insides old new).filter p).foldlM M.make as =
      (paired M.name old new).foldlM (M.updateOf p) as := by
  rw [ListComparison.insides]
  induction paired M.name old new generalizing as with
  | nil => rfl
  | cons q qs ih =>
    rw [List.flatMap_cons, List.filter_append, List.foldlM_append, List.foldlM_cons]
    exact congrArg _ (funext ih)

theorem name_foldlM_inner {cs : List Change} {a b : α} (h : cs.foldlM M.inner a = .ok b) :
    M.name b = M.name a := by
  induction cs generalizing a with
  | nil => exact (Except.ok.inj h) ▸ rfl
  | cons c cs ih =>
    rw [List.foldlM_cons] at h
    obtain ⟨d, hd, h⟩ := bind_eq_ok.1 h
    exact (ih h).trans (M.name_inner _ _ _ hd)

/-- **When the changes inside elements can be made.** -/
theorem exists_foldlM_insides (hn : (new.map M.name).Nodup)
    (hfirst : ∀ q ∈ paired M.name old new, ∃ a,
      as.find? (fun a => M.name a == M.name q.2) = some a) :
    (∃ bs, ((M.insides old new).filter p).foldlM M.make as = .ok bs) ↔
      ∀ q ∈ paired M.name old new, ∀ a, as.find? (fun a => M.name a == M.name q.2) = some a →
        ∃ b, (M.insideOf p q).foldlM M.inner a = .ok b := by
  rw [foldlM_insides]
  exact exists_foldlM_updates (fun _ _ _ => M.name_foldlM_inner) (fun _ _ _ => M.updateOf_eq p)
    (nodup_paired hn) hfirst

/-! ## The list that is compared under its names -/

section
variable (hnames : as.map M.name = old.map M.name) (hn : (new.map M.name).Nodup)
include hnames hn

/-- Additions and removals can be made in a list of the same names. -/
theorem foldlM_members_of_names :
    ((M.additions old new ++ M.removals old new).filter p).foldlM M.make as =
      .ok (M.members p old new as) := by
  refine (M.foldlM_members p).2 ⟨⟨⟨?_, fun s hs => ?_⟩, fun s => ?_⟩, rfl⟩
  · exact (nodup_absentFrom hn).sublist (List.filter_sublist.map _)
  · obtain ⟨x, hx, rfl⟩ := List.mem_map.1 hs
    exact hnames ▸ (M.name_added_mem p hx).2
  · rw [hnames]
    exact ((M.removedNames_sublist p).trans (List.filter_sublist.map M.name)).count_le s

/-- Then the changes can be made exactly if those inside elements can. -/
theorem exists_foldlM_insides_members :
    (∃ bs, ((M.insides old new).filter p).foldlM M.make (M.members p old new as) = .ok bs) ↔
      ∀ q ∈ paired M.name old new, ∀ a, as.find? (fun a => M.name a == M.name q.2) = some a →
        ∃ b, (M.insideOf p q).foldlM M.inner a = .ok b := by
  have hfind : ∀ q ∈ paired M.name old new, M.name q.2 ∈ old.map M.name ∧
      (M.members p old new as).find? (fun a => M.name a == M.name q.2) =
        as.find? fun a => M.name a == M.name q.2 := by
    intro q hq
    obtain ⟨ho, hnew⟩ := of_mem_paired hq
    have hname : M.name q.1 = M.name q.2 := by simpa using List.find?_some ho
    have hold : M.name q.2 ∈ old.map M.name :=
      hname ▸ List.mem_map_of_mem (List.mem_of_find?_eq_some ho)
    exact ⟨hold, M.find?_members p hold (List.mem_map_of_mem hnew) as⟩
  rw [M.exists_foldlM_insides p hn fun q hq => ?_]
  · exact forall₂_congr fun q hq => by rw [(hfind q hq).2]
  · rw [(hfind q hq).2]
    have hmem := hnames.symm ▸ (hfind q hq).1
    obtain ⟨a, ha, he⟩ := List.mem_map.1 hmem
    exact Option.isSome_iff_exists.1 (List.find?_isSome.2 ⟨a, ha, by simpa using he⟩)

theorem exists_foldlM_changes :
    (∃ bs, ((M.additions old new ++ M.removals old new ++ M.insides old new).filter p).foldlM M.make
        as = .ok bs) ↔
      ∀ q ∈ paired M.name old new, ∀ a, as.find? (fun a => M.name a == M.name q.2) = some a →
        ∃ b, (M.insideOf p q).foldlM M.inner a = .ok b := by
  rw [← M.exists_foldlM_insides_members p hnames hn, List.filter_append, List.foldlM_append,
    M.foldlM_members_of_names p hnames hn]
  rfl

end

/-! ## Lists without repetition -/

/-- The list after the changes that are let through, when `result` is what
    becomes of a pair of elements. -/
def replayed (result : α × α → α) (old new : List α) : List α :=
  (M.members p old new old).map fun a =>
    (((paired M.name old new).find? fun q => M.name q.2 == M.name a).map result).getD a

/-- What is added, when additions are let through as `f` tells of the element. -/
theorem exists_addedItems {f : α → Bool} (hf : ∀ x, p (M.added x) = f x.1) {a : α} :
    (∃ x ∈ M.addedItems p old new, x.1 = a) ↔
      a ∈ new ∧ M.name a ∉ old.map M.name ∧ f a = true := by
  constructor
  · rintro ⟨x, hx, rfl⟩
    obtain ⟨hmem, hname⟩ := M.name_added_mem p hx
    exact ⟨hmem, hname, hf x ▸ (List.mem_filter.1 hx).2⟩
  · rintro ⟨ha, hname, hfa⟩
    obtain ⟨i, hi, rfl⟩ := List.mem_iff_getElem.1 ha
    have hmem : (new[i], i) ∈ absentFrom M.name old new :=
      mem_absentFrom.2 ⟨List.mem_zipIdx_iff_getElem?.2 (List.getElem?_eq_getElem hi), hname⟩
    exact ⟨(new[i], i), List.mem_filter.2 ⟨hmem, (hf _).trans hfa⟩, rfl⟩

/-- Whether an element is removed, when removals are let through as `g` tells. -/
theorem mem_removedNames {g : α → Bool} (hg : ∀ x, p (M.removed x) = g x.1)
    (ho : (old.map M.name).Nodup) {a : α} (ha : a ∈ old) :
    M.name a ∈ M.removedNames p old new ↔ M.name a ∉ new.map M.name ∧ g a = true := by
  constructor
  · intro hr
    obtain ⟨x, hx, hname⟩ := List.mem_map.1 hr
    obtain ⟨hx, hp⟩ := List.mem_filter.1 hx
    have hold : x.1 ∈ old := (List.mem_zipIdx' (mem_absentFrom.1 hx).1).2 ▸ List.getElem_mem _
    obtain rfl := eq_of_name_eq ho hold ha hname
    exact ⟨M.not_mem_of_mem_removedNames p hr, hg x ▸ hp⟩
  · rintro ⟨hname, hga⟩
    obtain ⟨i, hi, rfl⟩ := List.mem_iff_getElem.1 ha
    have hmem : (old[i], i) ∈ absentFrom M.name new old :=
      mem_absentFrom.2 ⟨List.mem_zipIdx_iff_getElem?.2 (List.getElem?_eq_getElem hi), hname⟩
    exact List.mem_map.2 ⟨(old[i], i), List.mem_filter.2 ⟨hmem, (hg _).trans hga⟩, rfl⟩

/-- An element that only one list has is paired with none. -/
theorem find?_paired_eq_none (ho : (old.map M.name).Nodup) {a : α}
    (ha : M.name a ∉ old.map M.name ∨ M.name a ∉ new.map M.name) :
    (paired M.name old new).find? (fun q => M.name q.2 == M.name a) = none := by
  refine List.find?_eq_none.2 fun q hq he => ?_
  obtain ⟨hqo, hqn, hname⟩ := (mem_paired ho).1 hq
  have he : M.name q.2 = M.name a := by simpa using he
  rcases ha with ha | ha
  · exact ha (he ▸ hname ▸ List.mem_map_of_mem hqo)
  · exact ha (he ▸ List.mem_map_of_mem hqn)

section
variable (ho : (old.map M.name).Nodup) (hn : (new.map M.name).Nodup)
include ho hn

theorem nodup_extended : (((M.addedItems p old new).foldl M.put old).map M.name).Nodup := by
  have hp := (perm_foldl_put M.addsTo_put (M.addedItems p old new) old).map M.name
  rw [hp.nodup_iff, List.map_append, List.map_map, List.nodup_append']
  refine ⟨(nodup_absentFrom hn).sublist (List.filter_sublist.map _), ho, fun s hs => ?_⟩
  obtain ⟨x, hx, rfl⟩ := List.mem_map.1 hs
  exact (M.name_added_mem p hx).2

theorem members_eq : M.members p old new old =
    ((M.addedItems p old new).foldl M.put old).filter
      fun a => M.name a ∉ M.removedNames p old new :=
  erased_eq_filter (M.nodup_extended p ho hn) _

theorem nodup_members : ((M.members p old new old).map M.name).Nodup :=
  (M.nodup_extended p ho hn).sublist ((erased_sublist _ _).map M.name)

theorem mem_members {a : α} : a ∈ M.members p old new old ↔
    (a ∈ old ∨ ∃ x ∈ M.addedItems p old new, x.1 = a) ∧ M.name a ∉ M.removedNames p old new := by
  rw [M.members_eq p ho hn, List.mem_filter, decide_eq_true_iff,
    (perm_foldl_put M.addsTo_put (M.addedItems p old new) old).mem_iff, List.mem_append,
    List.mem_map, or_comm]

section
variable {f g : α → Bool} (hf : ∀ x, p (M.added x) = f x.1) (hg : ∀ x, p (M.removed x) = g x.1)
include hf hg

/-- What is in the list after the additions and removals, when they are let
    through as `f` and `g` tell of the element. -/
theorem mem_members_iff {a : α} : a ∈ M.members p old new old ↔
    (a ∈ old ∧ (M.name a ∈ new.map M.name ∨ g a = false)) ∨
      (a ∈ new ∧ M.name a ∉ old.map M.name ∧ f a = true) := by
  rw [M.mem_members p ho hn, M.exists_addedItems p hf]
  constructor
  · rintro ⟨ha | ha, hr⟩
    · refine .inl ⟨ha, or_iff_not_imp_left.2 fun hname => Bool.eq_false_iff.2 fun hga => hr ?_⟩
      exact (M.mem_removedNames p hg ho ha).2 ⟨hname, hga⟩
    · exact .inr ha
  · rintro (⟨ha, hkept⟩ | ha)
    · refine ⟨.inl ha, fun hr => ?_⟩
      obtain ⟨hname, hga⟩ := (M.mem_removedNames p hg ho ha).1 hr
      exact hkept.elim hname fun hfalse => absurd hga (by simp [hfalse])
    · exact ⟨.inr ha, fun hr => M.not_mem_of_mem_removedNames p hr (List.mem_map_of_mem ha.1)⟩

end

/-- A pair is found by the name of its first element. -/
theorem find?_paired {q : α × α} (hq : q ∈ paired M.name old new) :
    (paired M.name old new).find? (fun r => M.name r.2 == M.name q.1) = some q :=
  (find?_name_eq_some (nodup_paired hn)).2 ⟨hq, ((mem_paired ho).1 hq).2.2.symm⟩

/-- **What is in the list afterwards**, when additions and removals are let through
    as `f` and `g` tell of the element. -/
theorem mem_replayed {f g : α → Bool} (hf : ∀ x, p (M.added x) = f x.1)
    (hg : ∀ x, p (M.removed x) = g x.1) (result : α × α → α) {a : α} :
    a ∈ M.replayed p result old new ↔
      (a ∈ old ∧ M.name a ∉ new.map M.name ∧ g a = false) ∨
      (a ∈ new ∧ M.name a ∉ old.map M.name ∧ f a = true) ∨
      ∃ q ∈ paired M.name old new, result q = a := by
  rw [replayed, List.mem_map]
  simp only [M.mem_members_iff p ho hn hf hg]
  constructor
  · rintro ⟨b, ⟨hb, hkept⟩ | hb, rfl⟩
    · by_cases hbn : M.name b ∈ new.map M.name
      · obtain ⟨n, hnew, hname⟩ := List.mem_map.1 hbn
        have hq : (b, n) ∈ paired M.name old new := (mem_paired ho).2 ⟨hb, hnew, hname.symm⟩
        rw [M.find?_paired ho hn hq]
        exact .inr (.inr ⟨(b, n), hq, rfl⟩)
      · rw [M.find?_paired_eq_none ho (.inr hbn)]
        exact .inl ⟨hb, hbn, hkept.resolve_left hbn⟩
    · rw [M.find?_paired_eq_none ho (.inl hb.2.1)]
      exact .inr (.inl hb)
  · rintro (⟨ha, hname, hga⟩ | ha | ⟨q, hq, rfl⟩)
    · refine ⟨a, .inl ⟨ha, .inr hga⟩, ?_⟩
      rw [M.find?_paired_eq_none ho (.inr hname)]
      rfl
    · refine ⟨a, .inr ha, ?_⟩
      rw [M.find?_paired_eq_none ho (.inl ha.2.1)]
      rfl
    · obtain ⟨hqo, hqn, hname⟩ := (mem_paired ho).1 hq
      refine ⟨q.1, .inl ⟨hqo, .inl (hname ▸ List.mem_map_of_mem hqn)⟩, ?_⟩
      rw [M.find?_paired ho hn hq]
      rfl

theorem foldlM_insides_self {result : α × α → α}
    (hres : ∀ q ∈ paired M.name old new, (M.insideOf p q).foldlM M.inner q.1 = .ok (result q)) :
    ((M.insides old new).filter p).foldlM M.make (M.members p old new old) =
      .ok (M.replayed p result old new) := by
  rw [M.foldlM_insides p]
  refine foldlM_updates (fun _ _ _ => M.name_foldlM_inner) (fun _ _ _ => M.updateOf_eq p)
    (nodup_paired hn) (M.nodup_members p ho hn) fun q hq => ?_
  obtain ⟨hqo, hqn, hname⟩ := (mem_paired ho).1 hq
  refine ⟨q.1, ?_, hres q hq⟩
  rw [M.find?_members p (hname ▸ List.mem_map_of_mem hqo) (List.mem_map_of_mem hqn),
    (find?_name_eq_some ho).2 ⟨hqo, hname⟩]

/-- **The result for lists without repetition.** -/
theorem foldlM_changes {result : α × α → α}
    (hres : ∀ q ∈ paired M.name old new, (M.insideOf p q).foldlM M.inner q.1 = .ok (result q)) :
    ((M.additions old new ++ M.removals old new ++ M.insides old new).filter p).foldlM M.make old =
      .ok (M.replayed p result old new) := by
  rw [List.filter_append, List.foldlM_append, M.foldlM_members_of_names p rfl hn]
  exact M.foldlM_insides_self p ho hn hres

end

end ListReplay

end SchemaLoom
