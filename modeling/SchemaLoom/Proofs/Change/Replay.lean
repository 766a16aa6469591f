/-
  One change made in a named list.

  An element is added (`AddsTo`, wherever it is put), removed, or replaced by
  one of the same name (`replaced`).  Beside the new list, the list then lacks
  one name less or holds one name less that the new one lacks, or it is another
  element that goes with the new one of its name; the rest of the comparison is
  as it was.
-/
import SchemaLoom.Change.Merge
import SchemaLoom.Proofs.Change.Lists

namespace SchemaLoom

variable {α β : Type} {name : α → String} {old new xs ys zs : List α}

/-! ## Single steps -/

/-- The second list is the first with one element more, and the others in their
    order. -/
structure AddsTo (a : α) (as bs : List α) : Prop where
  perm : bs.Perm (a :: as)
  filter : ∀ q : α → Bool, q a = false → bs.filter q = as.filter q

theorem addsTo_insertIdx (a : α) {i : Nat} {as : List α} (h : i ≤ as.length) :
    AddsTo a as (as.insertIdx i a) := by
  refine ⟨List.perm_insertIdx a as h, fun q hq => ?_⟩
  induction as generalizing i with
  | nil =>
    obtain rfl : i = 0 := by simpa using h
    simp [hq]
  | cons b as ih =>
    cases i with
    | zero => simp [hq]
    | succ i =>
      rw [List.insertIdx_succ_cons, List.filter_cons, List.filter_cons, ih (by simpa using h)]

theorem any_name_eq {s : String} : (xs.any fun x => name x == s) = true ↔ s ∈ xs.map name := by
  simp [List.any_eq_true]

/-- An insertion where no element has the name. -/
theorem insertNew_eq_ok {a : α} {as : List α} (position : Nat) (target : ChangeTarget)
    (h : name a ∉ as.map name) :
    ∃ bs, insertNew (fun b => name b == name a) position a target as = .ok bs ∧ AddsTo a as bs :=
  ⟨insertAt position a as, if_neg (mt any_name_eq.1 h), addsTo_insertIdx a (Nat.min_le_right _ _)⟩

theorem appendNew_eq_ok {a : α} {as : List α} (target : ChangeTarget) (h : name a ∉ as.map name) :
    ∃ bs, appendNew (fun b => name b == name a) a target as = .ok bs ∧ AddsTo a as bs := by
  refine ⟨as ++ [a], if_neg (mt any_name_eq.1 h), ?_⟩
  rw [← List.insertIdx_length_self]
  exact addsTo_insertIdx a (Nat.le_refl _)

/-- In a list without repetition, the first element of a name is the only one. -/
theorem eraseP_name_eq_filter {as : List α} (hn : (as.map name).Nodup) (s : String) :
    as.eraseP (fun a => name a == s) = as.filter fun a => name a != s := by
  induction as with
  | nil => rfl
  | cons a as ih =>
    rw [List.map_cons, List.nodup_cons] at hn
    by_cases ha : name a = s
    · rw [List.eraseP_cons_of_pos (by simpa using ha), List.filter_cons_of_neg (by simpa using ha)]
      refine (List.filter_eq_self.2 fun b hb => ?_).symm
      simp only [bne_iff_ne, ne_eq]
      rintro rfl
      exact hn.1 (ha ▸ List.mem_map_of_mem hb)
    · rw [List.eraseP_cons_of_neg (by simpa using ha), List.filter_cons_of_pos (by simpa using ha),
        ih hn.2]

/-- A removal takes out the element of a name. -/
theorem removeFirst_eq_ok {s : String} {as : List α} (target : ChangeTarget)
    (h : s ∈ as.map name) (hn : (as.map name).Nodup) :
    removeFirst (fun a => name a == s) target as = .ok (as.filter fun a => name a != s) := by
  rw [removeFirst, if_pos (any_name_eq.2 h), eraseP_name_eq_filter hn]

/-- The list with another element in the place of those of its name. -/
def replaced (name : α → String) (b : α) (as : List α) : List α :=
  as.map fun c => if name c = name b then b else c

theorem replaced_eq_self {b : α} (h : name b ∉ xs.map name) : replaced name b xs = xs := by
  rw [replaced]
  conv_rhs => rw [← List.map_id xs]
  refine List.map_congr_left fun c hc => if_neg fun he => h ?_
  exact he ▸ List.mem_map_of_mem hc

theorem mem_replaced {a b : α} (h : a ∈ replaced name b xs) : a = b ∨ a ∈ xs := by
  obtain ⟨c, hc, rfl⟩ := List.mem_map.1 h
  by_cases he : name c = name b
  · exact .inl (if_pos he)
  · exact .inr ((if_neg he).symm ▸ hc)

theorem map_name_replaced (b : α) (xs : List α) :
    (replaced name b xs).map name = xs.map name := by
  rw [replaced, List.map_map]
  refine List.map_congr_left fun c _ => ?_
  by_cases he : name c = name b
  · rw [Function.comp_apply, if_pos he, he]
  · rw [Function.comp_apply, if_neg he]

/-- A change of the element of a name. -/
theorem updateFirst_eq_ok {f : α → Except MergeError α} {a b : α} {as : List α}
    (target : ChangeTarget) (ha : a ∈ as) (hn : (as.map name).Nodup) (hf : f a = .ok b)
    (hb : name b = name a) :
    updateFirst (fun c => name c == name a) f target as = .ok (replaced name b as) := by
  induction as with
  | nil => cases ha
  | cons c as ih =>
    rw [List.map_cons, List.nodup_cons] at hn
    rw [updateFirst, replaced, List.map_cons, ← replaced]
    rcases List.mem_cons.1 ha with rfl | ha
    · rw [if_pos (by simp), hf, if_pos hb.symm, replaced_eq_self (hb ▸ hn.1)]
      rfl
    · have hne : name c ≠ name a := fun he => hn.1 (he ▸ List.mem_map_of_mem ha)
      rw [if_neg (by simpa using hne), ih ha hn.2, if_neg (hb ▸ hne)]
      rfl

/-! ## What is absent -/

/-- What is absent depends on the names only. -/
theorem absentFrom_congr (h : ∀ x ∈ xs, name x ∈ ys.map name ↔ name x ∈ zs.map name) :
    absentFrom name ys xs = absentFrom name zs xs := by
  rw [absentFrom, absentFrom]
  refine List.filter_congr fun x hx => congrArg _ ?_
  rw [Bool.eq_iff_iff, any_name_eq, any_name_eq]
  refine h x.1 ?_
  rw [← List.zipIdx_map_fst 0 xs]
  exact List.mem_map_of_mem hx

section
variable {a : α} {bs : List α}

theorem AddsTo.nodup (h : AddsTo a old bs) (ha : name a ∉ old.map name)
    (ho : (old.map name).Nodup) : (bs.map name).Nodup := by
  rw [(h.perm.map name).nodup_iff, List.map_cons, List.nodup_cons]
  exact ⟨ha, ho⟩

theorem AddsTo.mem {b : α} (h : AddsTo a old bs) : b ∈ bs ↔ b = a ∨ b ∈ old := by
  rw [h.perm.mem_iff, List.mem_cons]

theorem AddsTo.absentFrom_left (h : AddsTo a old bs) :
    absentFrom name bs new = (absentFrom name old new).filter fun x => name x.1 ≠ name a := by
  rw [absentFrom, absentFrom, List.filter_filter]
  refine List.filter_congr fun x _ => ?_
  rw [Bool.eq_iff_iff]
  simp only [Bool.not_eq_true', Bool.and_eq_true, decide_eq_true_eq, ← Bool.not_eq_true,
    any_name_eq, (h.perm.map name).mem_iff, List.map_cons, List.mem_cons, not_or]

theorem AddsTo.absentFrom_right (h : AddsTo a old bs) (ha : name a ∈ new.map name) :
    (absentFrom name new bs).map Prod.fst = (absentFrom name new old).map Prod.fst := by
  rw [map_fst_absentFrom, map_fst_absentFrom]
  exact h.filter _ (by simpa using ha)

end

theorem absentFrom_removed_left {s : String} (hs : s ∉ new.map name) :
    absentFrom name (old.filter fun a => name a != s) new = absentFrom name old new := by
  refine absentFrom_congr fun x hx => ?_
  have hne : name x ≠ s := fun he => hs (he ▸ List.mem_map_of_mem hx)
  simp only [List.mem_map, List.mem_filter, bne_iff_ne]
  constructor
  · rintro ⟨y, ⟨hy, -⟩, he⟩
    exact ⟨y, hy, he⟩
  · rintro ⟨y, hy, he⟩
    exact ⟨y, ⟨hy, he ▸ hne⟩, he⟩

theorem absentFrom_removed_right {s : String} :
    (absentFrom name new (old.filter fun a => name a != s)).map Prod.fst =
      ((absentFrom name new old).filter fun x => name x.1 ≠ s).map Prod.fst := by
  have h : (fun x : α × Nat => decide (name x.1 ≠ s)) =
      (fun x => decide (name x ≠ s)) ∘ Prod.fst := rfl
  rw [h, ← List.filter_map, map_fst_absentFrom, map_fst_absentFrom, List.filter_filter,
    List.filter_filter]
  refine List.filter_congr fun x _ => ?_
  rw [Bool.eq_iff_iff]
  simp [and_comm]

theorem absentFrom_replaced_left (b : α) :
    absentFrom name (replaced name b old) new = absentFrom name old new :=
  absentFrom_congr fun x _ => by rw [map_name_replaced]

theorem absentFrom_replaced_right {b : α} (hb : name b ∈ new.map name) :
    (absentFrom name new (replaced name b old)).map Prod.fst =
      (absentFrom name new old).map Prod.fst := by
  rw [map_fst_absentFrom, map_fst_absentFrom]
  induction old with
  | nil => rfl
  | cons c old ih =>
    rw [replaced, List.map_cons, ← replaced, List.filter_cons, List.filter_cons, ih]
    by_cases he : name c = name b
    · rw [if_pos he, if_neg (by simpa using hb), he, if_neg (by simpa using hb)]
    · rw [if_neg he]

/-! ## What goes together -/

theorem flatMap_paired (f : α × α → List β) :
    (paired name old new).flatMap f =
      new.flatMap fun n =>
        ((old.find? fun o => name o == name n).map fun o => f (o, n)).getD [] := by
  rw [paired]
  induction new with
  | nil => rfl
  | cons n new ih =>
    rw [List.filterMap_cons, List.flatMap_cons, ← ih]
    cases old.find? fun o => name o == name n <;> rfl

/-- An element that goes with itself adds nothing. -/
theorem AddsTo.flatMap_paired {a : α} {bs : List α} {f : α × α → List β} (h : AddsTo a old bs)
    (ho : (old.map name).Nodup) (hn : (new.map name).Nodup) (ha : name a ∉ old.map name)
    (han : a ∈ new) (hf : f (a, a) = []) :
    (paired name bs new).flatMap f = (paired name old new).flatMap f := by
  rw [SchemaLoom.flatMap_paired, SchemaLoom.flatMap_paired]
  refine List.flatMap_congr fun n hnn => ?_
  by_cases he : name n = name a
  · obtain rfl := eq_of_name_eq hn hnn han he
    rw [find?_name_eq_none.2 ha, (find?_name_eq_some (h.nodup ha ho)).2 ⟨h.mem.2 (.inl rfl), rfl⟩]
    exact hf
  · have hq : (fun o => name o == name n) a = false := by simpa using fun h => he h.symm
    rw [← List.head?_filter, ← List.head?_filter, h.filter _ hq]

theorem paired_removed {s : String} (hs : s ∉ new.map name) :
    paired name (old.filter fun a => name a != s) new = paired name old new := by
  rw [paired, paired]
  refine List.filterMap_congr fun n hn => congrArg _ ?_
  have hne : name n ≠ s := fun he => hs (he ▸ List.mem_map_of_mem hn)
  rw [List.find?_filter]
  congr 1
  funext o
  rw [Bool.eq_iff_iff]
  simp only [bne_iff_ne, beq_iff_eq, decide_eq_true_eq, and_iff_right_iff_imp]
  exact fun he => he ▸ hne

theorem paired_replaced (b : α) :
    paired name (replaced name b old) new =
      (paired name old new).map fun p => (if name p.2 = name b then b else p.1, p.2) := by
  rw [paired, paired, List.map_filterMap]
  refine List.filterMap_congr fun n _ => ?_
  have hc : (fun o => name o == name n) ∘ (fun c => if name c = name b then b else c) =
      fun o => name o == name n := by
    funext o
    by_cases he : name o = name b
    · rw [Function.comp_apply, if_pos he, he]
    · rw [Function.comp_apply, if_neg he]
  rw [replaced, List.find?_map, hc, Option.map_map, Option.map_map]
  refine Option.map_congr fun o ho => ?_
  have he : name o = name n := by simpa using List.find?_some ho
  rw [Function.comp_apply, Function.comp_apply, he]

end SchemaLoom
