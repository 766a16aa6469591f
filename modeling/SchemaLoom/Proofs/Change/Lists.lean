/-
  Named lists side by side.

  The elements of both lists have names, and in one list a name occurs once.
  Then an element is found by its name (`find?_name_eq_some`), and the two lists
  split into what only one of them has (`mem_absentFrom`) and what both have
  (`mem_paired`).
-/
import Mathlib.Data.List.Nodup
import SchemaLoom.Change.Compare

namespace SchemaLoom

variable {α : Type} {name : α → String} {old new xs ys : List α}

/-- The elements of the lists are the same, whatever their order and number. -/
def SameMembers (xs ys : List String) : Prop := ∀ x, x ∈ xs ↔ x ∈ ys

theorem sameElements_eq_true {xs ys : List String} :
    sameElements xs ys = true ↔ SameMembers xs ys := by
  simp only [sameElements, Bool.and_eq_true, List.all_eq_true, List.contains_iff_mem, SameMembers]
  exact ⟨fun h x => ⟨h.1 x, h.2 x⟩, fun h => ⟨fun x => (h x).1, fun x => (h x).2⟩⟩

/-! ## Names -/

/-- An element is found by its name. -/
theorem find?_name_eq_some (h : (xs.map name).Nodup) {s : String} {x : α} :
    xs.find? (fun y => name y == s) = some x ↔ x ∈ xs ∧ name x = s := by
  constructor
  · intro hf
    exact ⟨List.mem_of_find?_eq_some hf, by simpa using List.find?_some hf⟩
  · rintro ⟨hx, rfl⟩
    induction xs with
    | nil => cases hx
    | cons y ys ih =>
      rw [List.map_cons, List.nodup_cons] at h
      rcases List.mem_cons.1 hx with rfl | hx
      · simp
      · have hne : name y ≠ name x := fun he => h.1 (he ▸ List.mem_map_of_mem hx)
        rw [List.find?_cons_of_neg (by simpa using hne), ih h.2 hx]

theorem find?_name_eq_none {s : String} :
    xs.find? (fun y => name y == s) = none ↔ s ∉ xs.map name := by
  simp [List.find?_eq_none]

/-- Names tell elements apart. -/
theorem eq_of_name_eq (h : (xs.map name).Nodup) {x y : α} (hx : x ∈ xs) (hy : y ∈ xs)
    (hn : name x = name y) : x = y :=
  List.inj_on_of_nodup_map h hx hy hn

/-- An element of a name is found, or another one of that name before it. -/
theorem exists_find?_name (name : α → String) {x : α} (hx : x ∈ xs) :
    ∃ y ∈ xs, name y = name x ∧ xs.find? (fun z => name z == name x) = some y := by
  cases hf : xs.find? fun z => name z == name x with
  | none => exact absurd (List.mem_map_of_mem hx) (find?_name_eq_none.1 hf)
  | some y => exact ⟨y, List.mem_of_find?_eq_some hf, by simpa using List.find?_some hf, rfl⟩

/-! ## Lists that a function makes the same -/

theorem eq_of_map_eq {β : Type} {f : α → β} (h : xs.map f = ys.map f)
    (hinj : ∀ x ∈ xs, ∀ y ∈ ys, f x = f y → x = y) : xs = ys := by
  induction xs generalizing ys with
  | nil => exact (List.map_eq_nil_iff.1 h.symm).symm
  | cons x xs ih =>
    cases ys with
    | nil => cases h
    | cons y ys =>
      obtain ⟨hxy, hrest⟩ := List.cons.inj h
      have hxy := hinj x List.mem_cons_self y List.mem_cons_self hxy
      have hrest := ih hrest fun a ha b hb =>
        hinj a (List.mem_cons_of_mem x ha) b (List.mem_cons_of_mem y hb)
      rw [hxy, hrest]

/-- Elements with names of their own are the same, up to their order, if they
    are so under a function that tells them apart. -/
theorem perm_of_map_perm {β : Type} {f : α → β} (hx : (xs.map name).Nodup)
    (hy : (ys.map name).Nodup) (h : (xs.map f).Perm (ys.map f))
    (hinj : ∀ x ∈ xs, ∀ y ∈ ys, f x = f y → x = y) : xs.Perm ys := by
  rw [List.perm_ext_iff_of_nodup hx.of_map hy.of_map]
  intro z
  constructor
  · intro hz
    obtain ⟨y, hy, hyz⟩ := List.mem_map.1 (h.mem_iff.1 (List.mem_map_of_mem hz))
    rwa [hinj z hz y hy hyz.symm]
  · intro hz
    obtain ⟨x, hx, hxz⟩ := List.mem_map.1 (h.mem_iff.2 (List.mem_map_of_mem hz))
    rwa [← hinj x hx z hz hxz]

/-! ## What only one list has -/

theorem mem_absentFrom {x : α × Nat} :
    x ∈ absentFrom name ys xs ↔ x ∈ xs.zipIdx ∧ name x.1 ∉ ys.map name := by
  simp [absentFrom, List.mem_filter]

theorem map_fst_absentFrom :
    (absentFrom name ys xs).map Prod.fst = xs.filter fun x => name x ∉ ys.map name := by
  have h : (fun x : α × Nat => !ys.any fun y => name y == name x.1) =
      (fun x => decide (name x ∉ ys.map name)) ∘ Prod.fst := by
    funext x
    rw [Bool.eq_iff_iff]
    simp
  rw [absentFrom, h, ← List.filter_map, List.zipIdx_map_fst]

theorem absentFrom_eq_nil :
    absentFrom name ys xs = [] ↔ ∀ x ∈ xs, name x ∈ ys.map name := by
  rw [← List.map_eq_nil_iff, map_fst_absentFrom, List.filter_eq_nil_iff]
  simp

/-- The names of what only one list has. -/
theorem nodup_absentFrom (h : (xs.map name).Nodup) :
    ((absentFrom name ys xs).map fun x => name x.1).Nodup := by
  have hm : (absentFrom name ys xs).map (fun x => name x.1) =
      ((absentFrom name ys xs).map Prod.fst).map name := by
    rw [List.map_map, Function.comp_def]
  rw [hm, map_fst_absentFrom]
  exact h.sublist (List.filter_sublist.map name)

/-! ## What both lists have -/

/-- An element is paired with the first one of its name. -/
theorem of_mem_paired {p : α × α} (h : p ∈ paired name old new) :
    old.find? (fun o => name o == name p.2) = some p.1 ∧ p.2 ∈ new := by
  obtain ⟨n, hn, h⟩ := List.mem_filterMap.1 h
  obtain ⟨o, ho, rfl⟩ := Option.map_eq_some_iff.1 h
  exact ⟨ho, hn⟩

theorem mem_paired (h : (old.map name).Nodup) {p : α × α} :
    p ∈ paired name old new ↔ p.1 ∈ old ∧ p.2 ∈ new ∧ name p.1 = name p.2 := by
  obtain ⟨o, n⟩ := p
  simp only [paired, List.mem_filterMap, Option.map_eq_some_iff, Prod.mk.injEq]
  constructor
  · rintro ⟨n, hn, o, ho, rfl, rfl⟩
    obtain ⟨ho, he⟩ := (find?_name_eq_some h).1 ho
    exact ⟨ho, hn, he⟩
  · rintro ⟨ho, hn, he⟩
    exact ⟨n, hn, o, (find?_name_eq_some h).2 ⟨ho, he⟩, rfl, rfl⟩

/-- The names of what both lists have. -/
theorem nodup_paired (h : (new.map name).Nodup) :
    ((paired name old new).map fun p => name p.2).Nodup := by
  have hs : ((paired name old new).map Prod.snd).Sublist new := by
    rw [paired, List.map_filterMap]
    induction new with
    | nil => simp
    | cons n new ih =>
      have ih := ih (List.nodup_cons.1 h).2
      rw [List.filterMap_cons]
      cases old.find? fun o => name o == name n with
      | none => exact ih.cons n
      | some o => exact ih.cons_cons n
  have hm : (paired name old new).map (fun p => name p.2) =
      ((paired name old new).map Prod.snd).map name := by
    rw [List.map_map, Function.comp_def]
  rw [hm]
  exact h.sublist (hs.map name)

end SchemaLoom
