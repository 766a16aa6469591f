/-
  What a computation that may fail tells when it succeeds.
-/

namespace SchemaLoom

variable {ε ε' α β γ : Type}

theorem bind_eq_ok {x : Except ε α} {f : α → Except ε β} {b : β} :
    x >>= f = .ok b ↔ ∃ a, x = .ok a ∧ f a = .ok b := by
  cases x with
  | error e => exact ⟨nofun, nofun⟩
  | ok a => exact ⟨fun h => ⟨a, rfl, h⟩, fun ⟨_, ha, h⟩ => Except.ok.inj ha ▸ h⟩

theorem bind_eq_error {x : Except ε α} {f : α → Except ε β} {e : ε} :
    x >>= f = .error e ↔ x = .error e ∨ ∃ a, x = .ok a ∧ f a = .error e := by
  cases x with
  | error e' =>
    exact ⟨fun h => .inl (congrArg _ (Except.error.inj h)), fun h =>
      h.elim (fun h => congrArg _ (Except.error.inj h)) fun ⟨_, ha, _⟩ => nomatch ha⟩
  | ok a =>
    exact ⟨fun h => .inr ⟨a, rfl, h⟩, fun h =>
      h.elim nofun fun ⟨_, ha, h⟩ => Except.ok.inj ha ▸ h⟩

theorem map_eq_ok {x : Except ε α} {f : α → β} {a : α} (h : x = .ok a) : x.map f = .ok (f a) := by
  rw [h]
  rfl

theorem map_eq_ok_iff {x : Except ε α} {f : α → β} {b : β} :
    x.map f = .ok b ↔ ∃ a, x = .ok a ∧ f a = b := by
  cases x with
  | error e => exact ⟨nofun, nofun⟩
  | ok a => exact ⟨fun h => ⟨a, rfl, Except.ok.inj h⟩, fun ⟨_, ha, h⟩ => Except.ok.inj ha ▸ h ▸ rfl⟩

/-- What all results have in common, the one that there is has. -/
theorem eq_of_map_eq_ok {x : Except ε α} {f : α → β} {g : β → γ} {b : β} {c : γ}
    (h : x.map f = .ok b) (hf : ∀ a, g (f a) = c) : g b = c := by
  obtain ⟨a, -, rfl⟩ := map_eq_ok_iff.1 h
  exact hf a

theorem exists_map_eq_ok {x : Except ε α} {f : α → β} :
    (∃ b, x.map f = .ok b) ↔ ∃ a, x = .ok a := by
  cases x with
  | error e => exact ⟨nofun, nofun⟩
  | ok a => exact ⟨fun _ => ⟨a, rfl⟩, fun _ => ⟨f a, rfl⟩⟩

theorem mapError_eq_ok {x : Except ε α} {f : ε → ε'} {a : α} :
    x.mapError f = .ok a ↔ x = .ok a := by
  cases x with
  | error e => exact ⟨nofun, nofun⟩
  | ok b => exact ⟨fun h => congrArg _ (Except.ok.inj h), fun h => congrArg _ (Except.ok.inj h)⟩

theorem toOption_eq_some {x : Except ε α} {a : α} : x.toOption = some a ↔ x = .ok a := by
  cases x with
  | error e => exact ⟨nofun, nofun⟩
  | ok b => exact ⟨fun h => congrArg _ (Option.some.inj h), fun h => congrArg _ (Except.ok.inj h)⟩

section
variable {f : α → Except ε β} {xs : List α} {ys : List β}

theorem mapM_eq_ok : xs.mapM f = .ok ys ↔ xs.map f = ys.map .ok := by
  induction xs generalizing ys with
  | nil => cases ys <;> simp [pure, Except.pure]
  | cons x xs ih =>
    rw [List.mapM_cons, bind_eq_ok, List.map_cons]
    constructor
    · rintro ⟨y, hy, h⟩
      obtain ⟨ys', hys, h⟩ := bind_eq_ok.1 h
      rw [← Except.ok.inj h, List.map_cons, hy, ih.1 hys]
    · intro h
      cases ys with
      | nil => cases h
      | cons y ys =>
        obtain ⟨hy, hys⟩ := List.cons.inj h
        exact ⟨y, hy, bind_eq_ok.2 ⟨ys, ih.2 hys, rfl⟩⟩

theorem exists_of_mapM_eq_ok (h : xs.mapM f = .ok ys) {x : α} (hx : x ∈ xs) :
    ∃ y ∈ ys, f x = .ok y := by
  have hm : f x ∈ ys.map .ok := mapM_eq_ok.1 h ▸ List.mem_map_of_mem hx
  obtain ⟨y, hy, he⟩ := List.mem_map.1 hm
  exact ⟨y, hy, he.symm⟩

theorem exists_of_mem_mapM_eq_ok (h : xs.mapM f = .ok ys) {y : β} (hy : y ∈ ys) :
    ∃ x ∈ xs, f x = .ok y := by
  have hm : Except.ok y ∈ xs.map f := mapM_eq_ok.1 h ▸ List.mem_map_of_mem hy
  exact List.mem_map.1 hm

/-- A traversal fails where one of its elements does. -/
theorem exists_of_mapM_eq_error {e : ε} (h : xs.mapM f = .error e) : ∃ x ∈ xs, f x = .error e := by
  induction xs with
  | nil => cases h
  | cons x xs ih =>
    rw [List.mapM_cons] at h
    rcases bind_eq_error.1 h with hx | ⟨y, -, h⟩
    · exact ⟨x, List.mem_cons_self, hx⟩
    rcases bind_eq_error.1 h with hxs | ⟨ys, -, h⟩
    · obtain ⟨x', hx', he⟩ := ih hxs
      exact ⟨x', List.mem_cons_of_mem x hx', he⟩
    · cases h

/-- What the results have in common with what they were computed from. -/
theorem map_eq_of_mapM_eq_ok {g : β → γ} {k : α → γ} (h : xs.mapM f = .ok ys)
    (hk : ∀ x y, f x = .ok y → g y = k x) : ys.map g = xs.map k := by
  have h := mapM_eq_ok.1 h
  induction xs generalizing ys with
  | nil => cases ys <;> simp_all
  | cons x xs ih =>
    cases ys with
    | nil => cases h
    | cons y ys =>
      obtain ⟨hy, hys⟩ := List.cons.inj h
      rw [List.map_cons, List.map_cons, hk x y hy, ih (mapM_eq_ok.2 hys) hys]

end

theorem forM_eq_ok {f : α → Except ε Unit} {xs : List α} :
    xs.forM f = .ok () ↔ ∀ x ∈ xs, f x = .ok () := by
  induction xs with
  | nil => simp [pure, Except.pure]
  | cons x xs ih =>
    change f x >>= (fun _ => xs.forM f) = .ok () ↔ _
    rw [bind_eq_ok, List.forall_mem_cons, ih]
    exact ⟨fun ⟨_, h⟩ => h, fun h => ⟨(), h⟩⟩

end SchemaLoom
