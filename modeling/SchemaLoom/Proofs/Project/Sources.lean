/-
  Schemas from several sources.

  The entities of a source are looked up among all that are there already, its own
  earlier ones included, and only the first source is taken as it is.

  * `addAll_eq_ok`, `addSchema_eq_ok`: what is added, and when it can be;
  * `foldlM_addSchema_eq_ok`, `foldlM_addSchema_eq_error`: the same of all sources, by
    induction on them;
  * `mergeAll_exact`: sources make one schema exactly if no two of them have an
    entity in common and no later one repeats an entity.
-/
import Mathlib.Data.List.Nodup
import Mathlib.Tactic.Tauto
import SchemaLoom.Project.Loading
import SchemaLoom.Proofs.Results
import SchemaLoom.Validation

namespace SchemaLoom.Schema

/-! ## Names of two schemas -/

/-- No entity of one schema has the kind and the name of an entity of the other. -/
def Apart (s t : Schema) : Prop := ∀ kind, List.Disjoint (s.namesOf kind) (t.namesOf kind)

/-- No two entities of the schema have the same kind and name. -/
def NamesOnce (s : Schema) : Prop := ∀ kind, (s.namesOf kind).Nodup

theorem Apart.symm {s t : Schema} (h : s.Apart t) : t.Apart s :=
  fun kind => List.disjoint_symm (h kind)

/-- The entities of both schemas, kept where the first one is. -/
def beside (s t : Schema) : Schema :=
  { s with
    enums := s.enums ++ t.enums
    helpers := s.helpers ++ t.helpers
    tables := s.tables ++ t.tables }

/-- The entities of all schemas in their order, kept where the first one is. -/
def joined (first : Schema) (others : List Schema) : Schema :=
  { first with
    enums := (first :: others).flatMap Schema.enums
    helpers := (first :: others).flatMap Schema.helpers
    tables := (first :: others).flatMap Schema.tables }

theorem namesOf_beside (s t : Schema) (kind : EntityKind) :
    (s.beside t).namesOf kind = s.namesOf kind ++ t.namesOf kind := by
  cases kind <;> exact List.map_append

theorem apart_beside {s t u : Schema} : (s.beside t).Apart u ↔ s.Apart u ∧ t.Apart u := by
  simp only [Apart, namesOf_beside, List.disjoint_append_left, forall_and]

theorem joined_nil (s : Schema) : s.joined [] = s := by simp [joined]

theorem joined_cons (s t : Schema) (others : List Schema) :
    s.joined (t :: others) = (s.beside t).joined others := by
  simp [joined, beside]

/-! ## One list of entities -/

section
variable {α : Type} {kind : EntityKind} {name : α → String} {there new all : List α}
  {e : LoadError}

theorem addAll_cons (a : α) :
    addAll kind name there (a :: new) =
      if name a ∈ there.map name then .error (.duplicate kind (name a))
      else addAll kind name (there ++ [a]) new := by
  have ha : (there.any fun b => name b == name a) = true ↔ name a ∈ there.map name := by
    simp
  rw [addAll, List.foldlM_cons]
  by_cases h : name a ∈ there.map name
  · rw [if_pos h, if_pos (ha.2 h)]
    rfl
  · rw [if_neg h, if_neg (mt ha.1 h)]
    rfl

/-- Entities are added if they have names of their own, which none has that is
    there. -/
theorem addAll_eq_ok :
    addAll kind name there new = .ok all ↔
      all = there ++ new ∧ (there.map name).Disjoint (new.map name) ∧ (new.map name).Nodup := by
  induction new generalizing there with
  | nil =>
    constructor
    · intro h
      cases h
      simp
    · rintro ⟨rfl, -, -⟩
      simp [addAll, pure, Except.pure]
  | cons a new ih =>
    rw [addAll_cons]
    by_cases h : name a ∈ there.map name
    · rw [if_pos h]
      refine iff_of_false nofun ?_
      rintro ⟨-, hd, -⟩
      exact hd h (by simp)
    · rw [if_neg h, ih]
      simp only [List.map_append, List.map_cons, List.map_nil, List.disjoint_append_left,
        List.singleton_disjoint, List.disjoint_cons_right, List.nodup_cons, List.append_assoc,
        List.singleton_append]
      tauto

/-- What cannot be added has the name of something that is there, or the name of
    something else that is added. -/
theorem addAll_eq_error (h : addAll kind name there new = .error e) :
    ∃ n, e = .duplicate kind n ∧ n ∈ new.map name ∧
      (n ∈ there.map name ∨ 1 < (new.map name).count n) := by
  induction new generalizing there with
  | nil => cases h
  | cons a new ih =>
    rw [addAll_cons] at h
    split at h
    next ha =>
      cases h
      exact ⟨name a, rfl, by simp, .inl ha⟩
    next =>
      obtain ⟨n, he, hn, hc⟩ := ih h
      refine ⟨n, he, List.mem_cons_of_mem _ hn, ?_⟩
      have hle : (new.map name).count n ≤ ((a :: new).map name).count n := List.count_le_count_cons
      rw [List.map_append, List.mem_append] at hc
      rcases hc with (hc | hc) | hc
      · exact .inl hc
      · obtain rfl : n = name a := by simpa using hc
        have := List.count_pos_iff.2 hn
        right
        rw [List.map_cons, List.count_cons_self]
        omega
      · right
        omega

end

/-! ## One schema -/

theorem forall_kind {P : EntityKind → Prop} :
    (∀ kind, P kind) ↔ P .enum ∧ P .helper ∧ P .table := by
  constructor
  · intro h
    exact ⟨h .enum, h .helper, h .table⟩
  · rintro ⟨he, hh, ht⟩ (_ | _ | _)
    exacts [he, hh, ht]

variable {s t u : Schema} {e : LoadError}

theorem addSchema_eq_ok :
    addSchema s t = .ok u ↔ u = s.beside t ∧ s.Apart t ∧ t.NamesOnce := by
  rw [addSchema, Apart, NamesOnce, forall_kind, forall_kind]
  simp only [bind_eq_ok, addAll_eq_ok, pure, Except.pure, Except.ok.injEq]
  constructor
  · rintro ⟨_, ⟨rfl, h₁, h₁'⟩, _, ⟨rfl, h₂, h₂'⟩, _, ⟨rfl, h₃, h₃'⟩, rfl⟩
    exact ⟨rfl, ⟨h₁, h₂, h₃⟩, h₁', h₂', h₃'⟩
  · rintro ⟨rfl, ⟨h₁, h₂, h₃⟩, h₁', h₂', h₃'⟩
    exact ⟨_, ⟨rfl, h₁, h₁'⟩, _, ⟨rfl, h₂, h₂'⟩, _, ⟨rfl, h₃, h₃'⟩, rfl⟩

/-- A schema that cannot be added clashes with what is there, or repeats an
    entity. -/
theorem addSchema_eq_error (h : addSchema s t = .error e) :
    ∃ kind name, e = .duplicate kind name ∧ name ∈ t.namesOf kind ∧
      (name ∈ s.namesOf kind ∨ 1 < (t.namesOf kind).count name) := by
  rw [addSchema] at h
  rcases bind_eq_error.1 h with h | ⟨enums, -, h⟩
  · exact ⟨.enum, addAll_eq_error h⟩
  rcases bind_eq_error.1 h with h | ⟨helpers, -, h⟩
  · exact ⟨.helper, addAll_eq_error h⟩
  rcases bind_eq_error.1 h with h | ⟨tables, -, h⟩
  · exact ⟨.table, addAll_eq_error h⟩
  · cases h

/-! ## All sources -/

theorem foldlM_addSchema_eq_ok {others : List Schema} :
    others.foldlM addSchema s = .ok u ↔
      u = s.joined others ∧ (s :: others).Pairwise Apart ∧ ∀ t ∈ others, t.NamesOnce := by
  induction others generalizing s with
  | nil =>
    rw [joined_nil]
    constructor
    · intro h
      cases h
      simp
    · rintro ⟨rfl, -, -⟩
      rfl
  | cons t others ih =>
    rw [List.foldlM_cons, bind_eq_ok]
    simp only [addSchema_eq_ok, ih, List.pairwise_cons, List.forall_mem_cons, joined_cons]
    constructor
    · rintro ⟨_, ⟨rfl, hst, ht⟩, rfl, ⟨hothers, hpair⟩, honce⟩
      have hs := fun v hv => apart_beside.1 (hothers v hv)
      exact ⟨rfl, ⟨⟨hst, fun v hv => (hs v hv).1⟩, fun v hv => (hs v hv).2, hpair⟩, ht, honce⟩
    · rintro ⟨rfl, ⟨⟨hst, hs⟩, ht, hpair⟩, ho, honce⟩
      have hothers := fun v hv => apart_beside.2 ⟨hs v hv, ht v hv⟩
      exact ⟨_, ⟨rfl, hst, ho⟩, rfl, ⟨hothers, hpair⟩, honce⟩

theorem mem_namesOf_joined {others : List Schema} {kind : EntityKind} {name : String} :
    name ∈ (s.joined others).namesOf kind ↔ ∃ t ∈ s :: others, name ∈ t.namesOf kind := by
  cases kind <;> simp [joined, namesOf] <;> grind

/-- The first source that cannot be added tells why. -/
theorem foldlM_addSchema_eq_error {others : List Schema}
    (h : others.foldlM addSchema s = .error e) :
    ∃ before t after, others = before ++ t :: after ∧
      before.foldlM addSchema s = .ok (s.joined before) ∧
      ∃ kind name, e = .duplicate kind name ∧ name ∈ t.namesOf kind ∧
        ((∃ v ∈ s :: before, name ∈ v.namesOf kind) ∨ 1 < (t.namesOf kind).count name) := by
  induction others generalizing s with
  | nil => cases h
  | cons t others ih =>
    rw [List.foldlM_cons] at h
    rcases bind_eq_error.1 h with ht | ⟨u, ht, h⟩
    · obtain ⟨kind, name, he, hn, hc⟩ := addSchema_eq_error ht
      exact ⟨[], t, others, rfl, by rw [joined_nil]; rfl, kind, name, he, hn,
        hc.imp_left fun hs => ⟨s, List.mem_cons_self, hs⟩⟩
    · obtain ⟨rfl, -, -⟩ := addSchema_eq_ok.1 ht
      obtain ⟨before, t', after, rfl, hb, kind, name, he, hn, hc⟩ := ih h
      refine ⟨t :: before, t', after, rfl, ?_, kind, name, he, hn, hc.imp_left ?_⟩
      · rw [List.foldlM_cons, ht, joined_cons]
        exact hb
      · rw [← mem_namesOf_joined, ← mem_namesOf_joined, joined_cons]
        exact id

/-- **Sources make one schema exactly if** no two of them have an entity in common
    and no later one repeats an entity; then all entities are in it, in the order of
    the sources.  Else the first source that clashes with those before it, or
    repeats an entity, is told by that entity.  Of sources that repeat nothing, the
    order does not matter. -/
theorem mergeAll_exact (first : Schema) (others : List Schema) :
    (∀ s, mergeAll (first :: others) = .ok s ↔
      s = first.joined others ∧ (first :: others).Pairwise Apart ∧
        ∀ t ∈ others, t.NamesOnce) ∧
    (∀ e, mergeAll (first :: others) = .error e →
      ∃ before t after, others = before ++ t :: after ∧
        mergeAll (first :: before) = .ok (first.joined before) ∧
        ∃ kind name, e = .duplicate kind name ∧ name ∈ t.namesOf kind ∧
          ((∃ s ∈ first :: before, name ∈ s.namesOf kind) ∨
            1 < (t.namesOf kind).count name)) ∧
    ((∀ t ∈ first :: others, t.NamesOnce) → ∀ schemas, schemas.Perm (first :: others) →
      ((∃ s, mergeAll schemas = .ok s) ↔ (first :: others).Pairwise Apart)) := by
  refine ⟨fun s => foldlM_addSchema_eq_ok, fun e => foldlM_addSchema_eq_error, ?_⟩
  intro honce schemas hperm
  have hpair : schemas.Pairwise Apart ↔ (first :: others).Pairwise Apart :=
    hperm.pairwise_iff Apart.symm
  cases schemas with
  | nil => exact absurd hperm.length_eq (by simp)
  | cons s rest =>
    have hrest : ∀ t ∈ rest, t.NamesOnce := fun t ht =>
      honce t (hperm.subset (List.mem_cons_of_mem s ht))
    rw [← hpair]
    constructor
    · rintro ⟨u, hu⟩
      exact (foldlM_addSchema_eq_ok.1 hu).2.1
    · intro h
      exact ⟨_, foldlM_addSchema_eq_ok.2 ⟨rfl, h, hrest⟩⟩

end SchemaLoom.Schema
