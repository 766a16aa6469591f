/-
  Runs of changes of one sort, made in a named list.

  * `foldlM_additions`: additions succeed exactly if they bring only new names;
  * `foldlM_removals`: removals succeed exactly if every name is there as often
    as it is removed;
  * `exists_foldlM_updates`, `foldlM_updates`: changes inside elements of
    different names succeed exactly if each of them does.
-/
import SchemaLoom.Proofs.Change.Replay
import SchemaLoom.Proofs.Results

namespace SchemaLoom

variable {α β σ ε : Type} {name : α → String} {as bs : List α} {s : String}

theorem foldlM_congr {f g : σ → β → Except ε σ} {xs : List β} (h : ∀ x ∈ xs, ∀ s, f s x = g s x)
    (s : σ) : xs.foldlM f s = xs.foldlM g s := by
  induction xs generalizing s with
  | nil => rfl
  | cons x xs ih =>
    rw [List.forall_mem_cons] at h
    rw [List.foldlM_cons, List.foldlM_cons, h.1]
    exact congrArg _ (funext (ih h.2))

/-- A run that changes a part of a state. -/
theorem foldlM_part (get : σ → α) (put : σ → α → σ) (hgp : ∀ s a, get (put s a) = a)
    (hpp : ∀ s a b, put (put s a) b = put s b) (hpg : ∀ s, put s (get s) = s)
    (f : α → β → Except ε α) (xs : List β) (s : σ) :
    xs.foldlM (fun s x => (f (get s) x).map (put s)) s = (xs.foldlM f (get s)).map (put s) := by
  induction xs generalizing s with
  | nil => exact congrArg Except.ok (hpg s).symm
  | cons x xs ih =>
    rw [List.foldlM_cons, List.foldlM_cons]
    cases hx : f (get s) x with
    | error e => rfl
    | ok a =>
      change xs.foldlM _ (put s a) = (xs.foldlM f a).map (put s)
      rw [ih, hgp, show put (put s a) = put s from funext (hpp s a)]

/-! ## Additions -/

/-- The list after elements are put into it, one after the other. -/
def inserted (xs : List (α × Nat)) (as : List α) : List α :=
  xs.foldl (fun as x => insertAt x.2 x.1 as) as

theorem addsTo_insertAt (i : Nat) (a : α) (as : List α) : AddsTo a as (insertAt i a as) :=
  addsTo_insertIdx a (Nat.min_le_right _ _)

theorem addsTo_append (a : α) (as : List α) : AddsTo a as (as ++ [a]) := by
  rw [← List.insertIdx_length_self]
  exact addsTo_insertIdx a (Nat.le_refl _)

/-- The names that a run adds are new, and none is added twice. -/
structure NewNames (added present : List String) : Prop where
  nodup : added.Nodup
  new : ∀ s ∈ added, s ∉ present

theorem newNames_cons {added present present' : List String} (h : present'.Perm (s :: present)) :
    NewNames (s :: added) present ↔ s ∉ present ∧ NewNames added present' := by
  constructor
  · rintro ⟨hn, ha⟩
    rw [List.nodup_cons] at hn
    rw [List.forall_mem_cons] at ha
    refine ⟨ha.1, hn.2, fun t ht hp => ?_⟩
    rcases List.mem_cons.1 (h.mem_iff.1 hp) with rfl | hp
    · exact hn.1 ht
    · exact ha.2 t ht hp
  · rintro ⟨hs, hn, ha⟩
    refine ⟨List.nodup_cons.2 ⟨fun hm => ?_, hn⟩, List.forall_mem_cons.2 ⟨hs, fun t ht hp => ?_⟩⟩
    · exact ha s hm (h.mem_iff.2 List.mem_cons_self)
    · exact ha t ht (h.mem_iff.2 (List.mem_cons_of_mem s hp))

section
variable {item : β → α} {put : List α → β → List α} {error : β → MergeError}
  {add : List α → β → Except MergeError (List α)} {xs : List β}
  (hput : ∀ as x, AddsTo (item x) as (put as x))
include hput

/-- **Additions succeed exactly if they bring only new names.** -/
theorem foldlM_additions (hadd : ∀ as x, add as x =
      if as.any (fun a => name a == name (item x)) then .error (error x) else .ok (put as x)) :
    xs.foldlM add as = .ok bs ↔
      NewNames (xs.map fun x => name (item x)) (as.map name) ∧ bs = xs.foldl put as := by
  induction xs generalizing as with
  | nil =>
    refine ⟨fun h => ⟨⟨List.nodup_nil, nofun⟩, (Except.ok.inj h).symm⟩, fun h => ?_⟩
    rw [h.2]
    rfl
  | cons x xs ih =>
    rw [List.foldlM_cons, bind_eq_ok, List.map_cons, hadd,
      newNames_cons ((hput as x).perm.map name), List.foldl_cons]
    by_cases hx : name (item x) ∈ as.map name
    · rw [if_pos (any_name_eq.2 hx)]
      constructor
      · rintro ⟨_, h, -⟩
        cases h
      · exact fun h => absurd hx h.1.1
    · rw [if_neg (mt any_name_eq.1 hx)]
      constructor
      · rintro ⟨cs, h, hcs⟩
        obtain rfl := Except.ok.inj h
        obtain ⟨hn, hb⟩ := ih.1 hcs
        exact ⟨⟨hx, hn⟩, hb⟩
      · rintro ⟨⟨-, hn⟩, hb⟩
        exact ⟨_, rfl, ih.2 ⟨hn, hb⟩⟩

theorem perm_foldl_put (xs : List β) (as : List α) :
    (xs.foldl put as).Perm (xs.map item ++ as) := by
  induction xs generalizing as with
  | nil => exact .refl _
  | cons x xs ih =>
    rw [List.foldl_cons, List.map_cons]
    refine (ih _).trans (((hput as x).perm.append_left _).trans ?_)
    exact List.perm_middle

/-- What has another property than the added elements stays in its order. -/
theorem filter_foldl_put {q : α → Bool} {xs : List β} (h : ∀ x ∈ xs, q (item x) = false)
    (as : List α) : (xs.foldl put as).filter q = as.filter q := by
  induction xs generalizing as with
  | nil => rfl
  | cons x xs ih =>
    rw [List.forall_mem_cons] at h
    rw [List.foldl_cons, ih h.2, (hput as x).filter q h.1]

/-- The first element of a name that is not added stays the first. -/
theorem find?_foldl_put {xs : List β} (h : s ∉ xs.map fun x => name (item x)) (as : List α) :
    (xs.foldl put as).find? (fun a => name a == s) = as.find? fun a => name a == s := by
  rw [← List.head?_filter, ← List.head?_filter, filter_foldl_put hput fun x hx => ?_]
  simp only [beq_eq_false_iff_ne]
  rintro rfl
  exact h (List.mem_map.2 ⟨x, hx, rfl⟩)

end

/-! ## Removals -/

/-- The list after the first elements of some names are taken out. -/
def erased (name : α → String) (ss : List String) (as : List α) : List α :=
  ss.foldl (fun as s => as.eraseP fun a => name a == s) as

theorem map_name_eraseP (as : List α) (s : String) :
    (as.eraseP fun a => name a == s).map name = (as.map name).erase s := by
  rw [List.erase_eq_eraseP', List.eraseP_map]
  rfl

/-- Every name is there as often as it is removed. -/
def Covers (present removed : List String) : Prop := ∀ s, removed.count s ≤ present.count s

theorem covers_cons {present removed : List String} :
    Covers present (s :: removed) ↔ s ∈ present ∧ Covers (present.erase s) removed := by
  simp only [Covers, List.count_cons, List.count_erase, ← List.count_pos_iff]
  constructor
  · intro h
    refine ⟨?_, fun t => ?_⟩
    · have hs := h s
      rw [beq_self_eq_true, if_pos rfl] at hs
      omega
    · have ht := h t
      by_cases hst : (s == t) = true
      · rw [if_pos hst] at ht ⊢
        omega
      · rw [if_neg hst] at ht ⊢
        omega
  · rintro ⟨hs, h⟩ t
    have ht := h t
    by_cases hst : (s == t) = true
    · obtain rfl := beq_iff_eq.1 hst
      rw [if_pos hst] at ht ⊢
      omega
    · rw [if_neg hst] at ht ⊢
      omega

/-- **Removals succeed exactly if every name is there as often as it is
    removed.** -/
theorem foldlM_removals {item : β → String} {target : β → ChangeTarget} {xs : List β} :
    xs.foldlM (fun as x => removeFirst (fun a => name a == item x) (target x) as) as = .ok bs ↔
      Covers (as.map name) (xs.map item) ∧ bs = erased name (xs.map item) as := by
  induction xs generalizing as with
  | nil =>
    refine ⟨fun h => ⟨fun s => by simp, (Except.ok.inj h).symm⟩, fun h => ?_⟩
    rw [h.2]
    rfl
  | cons x xs ih =>
    rw [List.foldlM_cons, bind_eq_ok, List.map_cons, covers_cons, erased, List.foldl_cons, ← erased,
      ← map_name_eraseP, removeFirst]
    by_cases hx : item x ∈ as.map name
    · rw [if_pos (any_name_eq.2 hx)]
      constructor
      · rintro ⟨cs, h, hcs⟩
        obtain rfl := Except.ok.inj h
        obtain ⟨hn, hb⟩ := ih.1 hcs
        exact ⟨⟨hx, hn⟩, hb⟩
      · rintro ⟨⟨-, hn⟩, hb⟩
        exact ⟨_, rfl, ih.2 ⟨hn, hb⟩⟩
    · rw [if_neg (mt any_name_eq.1 hx)]
      constructor
      · rintro ⟨_, h, -⟩
        cases h
      · exact fun h => absurd h.1.1 hx

theorem erased_sublist (ss : List String) (as : List α) : (erased name ss as).Sublist as := by
  induction ss generalizing as with
  | nil => exact .refl as
  | cons s ss ih => exact (ih _).trans List.eraseP_sublist

/-- The first element of a name that is not removed stays the first. -/
theorem find?_erased {ss : List String} (h : s ∉ ss) (as : List α) :
    (erased name ss as).find? (fun a => name a == s) = as.find? fun a => name a == s := by
  induction ss generalizing as with
  | nil => rfl
  | cons t ss ih =>
    rw [List.mem_cons, not_or] at h
    rw [erased, List.foldl_cons, ← erased, ih h.2]
    induction as with
    | nil => rfl
    | cons a as ih =>
      by_cases ha : name a = t
      · rw [List.eraseP_cons_of_pos (by simpa using ha),
          List.find?_cons_of_neg (by simpa [ha] using fun he => h.1 he.symm)]
      · rw [List.eraseP_cons_of_neg (by simpa using ha), List.find?_cons, List.find?_cons, ih]

/-- Of a list without repetition, the elements of other names stay. -/
theorem erased_eq_filter (hn : (as.map name).Nodup) (ss : List String) :
    erased name ss as = as.filter fun a => name a ∉ ss := by
  induction ss generalizing as with
  | nil => simp [erased]
  | cons s ss ih =>
    have hs : ((as.filter fun a => name a != s).map name).Nodup :=
      hn.sublist (List.filter_sublist.map name)
    rw [erased, List.foldl_cons, ← erased, eraseP_name_eq_filter hn, ih hs, List.filter_filter]
    refine List.filter_congr fun a _ => ?_
    rw [Bool.eq_iff_iff]
    simp [and_comm]

/-! ## Changes inside elements -/

/-- The list with another element in the place of the first one of a name. -/
def exchanged (name : α → String) (s : String) (b : α) : List α → List α
  | [] => []
  | a :: as => if name a == s then b :: as else a :: exchanged name s b as

theorem exchanged_self {a : α} (h : as.find? (fun a => name a == s) = some a) :
    exchanged name s a as = as := by
  induction as with
  | nil => rfl
  | cons b as ih =>
    rw [List.find?_cons] at h
    rw [exchanged]
    cases hb : name b == s with
    | true =>
      rw [hb] at h
      rw [if_pos rfl, Option.some.inj h]
    | false =>
      rw [hb] at h
      rw [if_neg Bool.false_ne_true, ih h]

theorem map_name_exchanged {b : α} (hb : name b = s) (as : List α) :
    (exchanged name s b as).map name = as.map name := by
  induction as with
  | nil => rfl
  | cons a as ih =>
    rw [exchanged]
    split
    next ha => rw [List.map_cons, List.map_cons, hb, ← beq_iff_eq.1 ha]
    · rw [List.map_cons, List.map_cons, ih]

theorem exchanged_exchanged {b : α} (hb : name b = s) (c : α) (as : List α) :
    exchanged name s c (exchanged name s b as) = exchanged name s c as := by
  induction as with
  | nil => rfl
  | cons a as ih =>
    rw [exchanged]
    by_cases ha : (name a == s) = true
    · rw [if_pos ha, exchanged, exchanged, if_pos ha, if_pos (beq_iff_eq.2 hb)]
    · rw [if_neg ha, exchanged, exchanged, if_neg ha, if_neg ha, ih]

theorem find?_exchanged {a b : α} (h : as.find? (fun a => name a == s) = some a)
    (hb : name b = s) : (exchanged name s b as).find? (fun a => name a == s) = some b := by
  induction as with
  | nil => cases h
  | cons c as ih =>
    rw [List.find?_cons] at h
    rw [exchanged]
    cases hc : name c == s with
    | true => rw [if_pos rfl, List.find?_cons_of_pos (by simpa using hb)]
    | false =>
      rw [hc] at h
      rw [if_neg Bool.false_ne_true, List.find?_cons_of_neg (by simp [hc]), ih h]

theorem find?_exchanged_of_ne {b : α} {t : String} (hb : name b = s) (ht : t ≠ s) (as : List α) :
    (exchanged name s b as).find? (fun a => name a == t) = as.find? fun a => name a == t := by
  induction as with
  | nil => rfl
  | cons c as ih =>
    rw [exchanged]
    by_cases hc : (name c == s) = true
    · have hct : ¬ (name c == t) = true := by
        rw [beq_iff_eq] at hc ⊢
        exact fun h => ht (h.symm.trans hc)
      have hbt : ¬ (name b == t) = true := by
        rw [beq_iff_eq, hb]
        exact ht.symm
      rw [if_pos hc, List.find?_cons, List.find?_cons, Bool.eq_false_iff.2 hct,
        Bool.eq_false_iff.2 hbt]
    · rw [if_neg hc, List.find?_cons, List.find?_cons, ih]

/-- A change of an element that is there. -/
theorem updateFirst_eq {a : α} (h : as.find? (fun a => name a == s) = some a)
    (f : α → Except MergeError α) (target : ChangeTarget) :
    updateFirst (fun a => name a == s) f target as =
      (f a).map fun b => exchanged name s b as := by
  induction as with
  | nil => cases h
  | cons c as ih =>
    rw [List.find?_cons] at h
    rw [updateFirst]
    cases hc : name c == s with
    | true =>
      rw [hc] at h
      obtain rfl := Option.some.inj h
      simp [exchanged, hc]
    | false =>
      rw [hc] at h
      rw [if_neg Bool.false_ne_true, ih h]
      cases f a with
      | error e => rfl
      | ok b => simp [exchanged, hc, Except.map]

/-- Changes of one element that is there. -/
theorem foldlM_updateFirst {f : α → β → Except MergeError α} (target : β → ChangeTarget)
    (hf : ∀ a x b, f a x = .ok b → name b = name a) {a : α}
    (h : as.find? (fun a => name a == s) = some a) (xs : List β) :
    xs.foldlM (fun as x => updateFirst (fun a => name a == s) (f · x) (target x) as) as =
      (xs.foldlM f a).map fun b => exchanged name s b as := by
  have hs : name a = s := by simpa using List.find?_some h
  induction xs generalizing as a with
  | nil => exact congrArg Except.ok (exchanged_self h).symm
  | cons x xs ih =>
    rw [List.foldlM_cons, List.foldlM_cons, updateFirst_eq h]
    cases hx : f a x with
    | error e => rfl
    | ok b =>
      have hb : name b = s := (hf a x b hx).trans hs
      change List.foldlM _ (exchanged name s b as) xs = (xs.foldlM f b).map _
      rw [ih (find?_exchanged h hb) hb]
      exact congrArg (Except.map · _) (funext fun c => exchanged_exchanged hb c as)

/-- In a list without repetition, the element of a name is exchanged. -/
theorem exchanged_eq_replaced {b : α} (hn : (as.map name).Nodup) (hb : name b = s) :
    exchanged name s b as = replaced name b as := by
  subst hb
  induction as with
  | nil => rfl
  | cons a as ih =>
    rw [List.map_cons, List.nodup_cons] at hn
    rw [exchanged, replaced, List.map_cons, ← replaced]
    by_cases ha : name a = name b
    · rw [if_pos (by simpa using ha), if_pos ha, replaced_eq_self (ha ▸ hn.1)]
    · rw [if_neg (by simpa using ha), if_neg ha, ih hn.2]

section
variable {key : β → String} {f : α → β → Except MergeError α}
  {update : List α → β → Except MergeError (List α)} {xs : List β}
  (hf : ∀ a x b, f a x = .ok b → name b = name a)
  (hupdate : ∀ as x a, as.find? (fun a => name a == key x) = some a →
    update as x = (f a x).map fun b => exchanged name (key x) b as)
  (hkey : (xs.map key).Nodup)
include hf hupdate hkey

/-- **Changes inside elements of different names succeed exactly if each of them
    does.** -/
theorem exists_foldlM_updates
    (hfirst : ∀ x ∈ xs, ∃ a, as.find? (fun a => name a == key x) = some a) :
    (∃ bs, xs.foldlM update as = .ok bs) ↔
      ∀ x ∈ xs, ∀ a, as.find? (fun a => name a == key x) = some a → ∃ b, f a x = .ok b := by
  induction xs generalizing as with
  | nil => exact ⟨fun _ => nofun, fun _ => ⟨as, rfl⟩⟩
  | cons x xs ih =>
    rw [List.map_cons, List.nodup_cons] at hkey
    rw [List.forall_mem_cons] at hfirst ⊢
    obtain ⟨a, ha⟩ := hfirst.1
    have hs : name a = key x := by simpa using List.find?_some ha
    rw [List.foldlM_cons, hupdate as x a ha]
    cases hx : f a x with
    | error e =>
      refine iff_of_false (fun ⟨_, h⟩ => nomatch h) fun h => ?_
      obtain ⟨b, hb⟩ := h.1 a ha
      rw [hx] at hb
      cases hb
    | ok b =>
      have hb : name b = key x := (hf a x b hx).trans hs
      have hne : ∀ y ∈ xs, key y ≠ key x := fun y hy he => hkey.1 (he ▸ List.mem_map_of_mem hy)
      have hfind : ∀ y ∈ xs, (exchanged name (key x) b as).find? (fun a => name a == key y) =
          as.find? fun a => name a == key y := fun y hy => find?_exchanged_of_ne hb (hne y hy) as
      change (∃ bs, xs.foldlM update (exchanged name (key x) b as) = .ok bs) ↔ _
      rw [ih hkey.2 fun y hy => hfind y hy ▸ hfirst.2 y hy]
      constructor
      · refine fun h => ⟨fun a' ha' => ?_, fun y hy => hfind y hy ▸ h y hy⟩
        obtain rfl := Option.some.inj (ha.symm.trans ha')
        exact ⟨b, hx⟩
      · exact fun h y hy => (hfind y hy).symm ▸ h.2 y hy

/-- The result of changes inside elements of different names. -/
theorem foldlM_updates {result : β → α} (hn : (as.map name).Nodup)
    (hres : ∀ x ∈ xs, ∃ a, as.find? (fun a => name a == key x) = some a ∧
      f a x = .ok (result x)) :
    xs.foldlM update as =
      .ok (as.map fun a => ((xs.find? fun x => key x == name a).map result).getD a) := by
  induction xs generalizing as with
  | nil => simp [pure, Except.pure]
  | cons x xs ih =>
    rw [List.map_cons, List.nodup_cons] at hkey
    rw [List.forall_mem_cons] at hres
    obtain ⟨⟨a, ha, hx⟩, hres⟩ := hres
    have hs : name a = key x := by simpa using List.find?_some ha
    have hb : name (result x) = key x := (hf a x _ hx).trans hs
    have hne : ∀ y ∈ xs, key y ≠ key x := fun y hy he => hkey.1 (he ▸ List.mem_map_of_mem hy)
    rw [List.foldlM_cons, hupdate as x a ha, hx]
    change xs.foldlM update (exchanged name (key x) (result x) as) = _
    rw [ih hkey.2 (by rwa [map_name_exchanged hb]) fun y hy => ?_]
    · rw [exchanged_eq_replaced hn hb, replaced, List.map_map]
      refine congrArg Except.ok (List.map_congr_left fun c _ => ?_)
      rw [Function.comp_apply, List.find?_cons]
      by_cases hc : name c = name (result x)
      · have hnone : xs.find? (fun y => key y == name (result x)) = none := by
          rw [List.find?_eq_none]
          intro y hy
          simpa [hb] using hne y hy
        rw [if_pos hc, hnone, hc, hb, beq_self_eq_true]
        rfl
      · have hxc : (key x == name c) = false := by
          rw [beq_eq_false_iff_ne, ← hb]
          exact fun he => hc he.symm
        rw [if_neg hc, hxc]
    · obtain ⟨c, hc, hfc⟩ := hres y hy
      exact ⟨c, (find?_exchanged_of_ne hb (hne y hy) as).trans hc, hfc⟩

end

end SchemaLoom
