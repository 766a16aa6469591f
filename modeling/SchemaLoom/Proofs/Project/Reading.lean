/-
  What becomes of the modules of a project when it is read.

  * `ReadResult.ofModules_declared`: modules that declare what they are named for
    are read, in their order;
  * `ReadResult.ofModules_unreadable`: a module that cannot be read is told;
  * `Schema.declares_entity`, `Schema.refused_entity`: a generated module is read
    exactly if its columns are legible.
-/
import SchemaLoom.Project.Reading
import SchemaLoom.Proofs.Module.Batch
import SchemaLoom.Proofs.Module.RoundTrip

namespace SchemaLoom

variable {s : Schema} {g : GeneratedEntity}

/-- Adding the module of a kind and a name to a schema adds an entity of that
    kind and name. -/
def Declares (kind : EntityKind) (name text : String) : Prop :=
  ∀ s : Schema, ∃ s', s.addModule kind name text = .ok s' ∧
    ∀ other, s'.namesOf other = s.namesOf other ++ if other = kind then [name] else []

/-- The module cannot be added to a schema. -/
def Refused (kind : EntityKind) (name text : String) : Prop :=
  ∀ s : Schema, ∃ e, s.addModule kind name text = .error e

/-! ## Generated modules -/

theorem declares_enum {e : EnumDef} (hg : e.generate = .ok g) (scope : ImportScope) :
    Declares .enum e.name (g.render scope) := by
  intro s
  refine ⟨{ s with enums := s.enums ++ [e.canonical] }, ?_, fun other => ?_⟩
  · rw [Schema.addModule, EnumDef.read_render hg]
    rfl
  · cases other <;> simp [Schema.namesOf, EnumDef.canonical]

section
variable {h : HelperDef} (hg : h.generate = .ok g) (hf : ∀ c ∈ h.columns, c.CallsFunction)
include hg hf

theorem declares_helper (hl : ∀ c ∈ h.columns, c.Legible) (scope : ImportScope) :
    Declares .helper h.name (g.render scope) := by
  intro s
  refine ⟨{ s with helpers := s.helpers ++ [h.reread] }, ?_, fun other => ?_⟩
  · rw [Schema.addModule, HelperDef.read_render_reread hg hf hl]
    rfl
  · cases other <;> simp [Schema.namesOf, HelperDef.reread]

theorem refused_helper (hl : ¬ ∀ c ∈ h.columns, c.Legible) (scope : ImportScope) :
    Refused .helper h.name (g.render scope) := by
  intro s
  obtain ⟨e, he⟩ := HelperDef.read_refused hg hf hl scope
  exact ⟨e, by rw [Schema.addModule, he]; rfl⟩

end

section
variable {t : TableDef} (hg : t.generate = .ok g) (hf : t.Spellable)
include hg hf

theorem declares_table (hl : ∀ c ∈ t.columns, c.Legible) (scope : ImportScope) :
    Declares .table t.name (g.render scope) := by
  intro s
  refine ⟨{ s with tables := s.tables ++ [t.reread] }, ?_, fun other => ?_⟩
  · rw [Schema.addModule, TableDef.read_render_reread hg hf hl]
    rfl
  · cases other <;> simp [Schema.namesOf, TableDef.reread, TableDef.canonical]

theorem refused_table (hl : ¬ ∀ c ∈ t.columns, c.Legible) (scope : ImportScope) :
    Refused .table t.name (g.render scope) := by
  intro s
  obtain ⟨e, he⟩ := TableDef.read_refused hg hf hl t.name scope
  exact ⟨e, by rw [Schema.addModule, he]; rfl⟩

end

namespace Schema

/-- Every default of the schema that is a call names a function, as all do that
    are read from a definition. -/
def CallsFunctions (s : Schema) : Prop := ∀ c ∈ s.columns, c.CallsFunction

/-- No column of the schema has an enum that is named like the call that
    declares enums. -/
def Legible (s : Schema) : Prop := ∀ c ∈ s.columns, c.Legible

section
variable (hv : hasErrors s.validate = false) (hf : s.CallsFunctions)
include hv hf

theorem spellable_of_mem {t : TableDef} (ht : t ∈ s.tables) : t.Spellable :=
  ⟨fun c hc => hf c (mem_columns_of_table ht hc),
    fun _ hk _ hn => isIdentifier_of_mem_key hv ht hk hn⟩

/-- A generated module is read if the columns of its entity are legible, and
    refused if they are not. -/
theorem exists_columns (hg : g ∈ s.generateBatch.entities) (scope : ImportScope) :
    ∃ columns : List Column, columns ⊆ s.columns ∧
      ((∀ c ∈ columns, c.Legible) → Declares g.kind g.name (g.render scope)) ∧
      ((¬ ∀ c ∈ columns, c.Legible) → Refused g.kind g.name (g.render scope)) := by
  rcases mem_entities.1 hg with ⟨e, -, hg⟩ | ⟨h, hh, hg⟩ | ⟨t, ht, hg⟩
  · obtain ⟨hk, hn⟩ := EnumDef.ref_generate hg
    rw [hk, hn]
    exact ⟨[], List.nil_subset _, fun _ => declares_enum hg scope, fun hl => absurd (by simp) hl⟩
  · obtain ⟨hk, hn⟩ := HelperDef.ref_generate hg
    have hf : ∀ c ∈ h.columns, c.CallsFunction := fun c hc => hf c (mem_columns_of_helper hh hc)
    rw [hk, hn]
    exact ⟨h.columns, fun c hc => mem_columns_of_helper hh hc,
      fun hl => declares_helper hg hf hl scope, fun hl => refused_helper hg hf hl scope⟩
  · obtain ⟨hk, hn⟩ := TableDef.ref_generate hg
    have hf := spellable_of_mem hv hf ht
    rw [hk, hn]
    exact ⟨t.columns, fun c hc => mem_columns_of_table ht hc,
      fun hl => declares_table hg hf hl scope, fun hl => refused_table hg hf hl scope⟩

/-- A generated module is read, or refused. -/
theorem declares_or_refused (hg : g ∈ s.generateBatch.entities) (scope : ImportScope) :
    Declares g.kind g.name (g.render scope) ∨ Refused g.kind g.name (g.render scope) := by
  obtain ⟨columns, -, hdeclares, hrefused⟩ := exists_columns hv hf hg scope
  by_cases hl : ∀ c ∈ columns, c.Legible
  · exact .inl (hdeclares hl)
  · exact .inr (hrefused hl)

/-- **Generated modules are read if the columns are legible.** -/
theorem declares_entity (hl : s.Legible) (hg : g ∈ s.generateBatch.entities)
    (scope : ImportScope) : Declares g.kind g.name (g.render scope) := by
  obtain ⟨columns, hsub, hdeclares, -⟩ := exists_columns hv hf hg scope
  exact hdeclares fun c hc => hl c (hsub hc)

/-- **Some generated module is refused if some column is not legible.** -/
theorem refused_entity (he : s.generateBatch.errors = []) (hl : ¬ s.Legible) :
    ∃ g ∈ s.generateBatch.entities, ∀ scope, Refused g.kind g.name (g.render scope) := by
  obtain ⟨c, hc⟩ := Classical.not_forall.1 hl
  obtain ⟨hc, hl⟩ := Classical.not_imp.1 hc
  rcases List.mem_append.1 hc with hc | hc
  · obtain ⟨h, hh, hc⟩ := List.mem_flatMap.1 hc
    obtain ⟨g, hmem, hg⟩ := generate_of_helper he hh
    obtain ⟨hk, hn⟩ := HelperDef.ref_generate hg
    refine ⟨g, hmem, fun scope => ?_⟩
    rw [hk, hn]
    exact refused_helper hg (fun c hc => hf c (mem_columns_of_helper hh hc))
      (fun hall => hl (hall c hc)) scope
  · obtain ⟨t, ht, hc⟩ := List.mem_flatMap.1 hc
    obtain ⟨g, hmem, hg⟩ := generate_of_table he ht
    obtain ⟨hk, hn⟩ := TableDef.ref_generate hg
    refine ⟨g, hmem, fun scope => ?_⟩
    rw [hk, hn]
    exact refused_table hg (spellable_of_mem hv hf ht) (fun hall => hl (hall c hc)) scope

end

end Schema

/-! ## Modules as they are read -/

namespace FetchedModule

/-- The file was read, and declares what it is named for. -/
def Declared (f : FetchedModule) : Prop :=
  ∃ text, f.text = .ok text ∧ Declares f.kind f.file.stem text

/-- The file was read, and what it holds cannot be. -/
def Unreadable (f : FetchedModule) : Prop :=
  ∃ text, f.text = .ok text ∧ Refused f.kind f.file.stem text

end FetchedModule

namespace ReadResult

variable {r : ReadResult} {f : FetchedModule} {fetched : List FetchedModule}

theorem add_declared (h : f.Declared) : (r.add f).errors = r.errors ∧
    ∀ kind, (r.add f).schema.namesOf kind =
      r.schema.namesOf kind ++ if kind = f.kind then [f.file.stem] else [] := by
  obtain ⟨text, ht, h⟩ := h
  obtain ⟨s', hs, hn⟩ := h r.schema
  simp only [add, ht, hs]
  exact ⟨trivial, hn⟩

theorem add_unreadable (h : f.Unreadable) : (r.add f).errors ≠ [] := by
  obtain ⟨text, ht, h⟩ := h
  obtain ⟨e, he⟩ := h r.schema
  simp only [add, ht, he]
  exact List.append_ne_nil_of_right_ne_nil _ (List.cons_ne_nil _ _)

/-- Faults that were told stay told. -/
theorem add_errors (h : (r.add f).errors = []) : r.errors = [] := by
  rw [add] at h
  dsimp only at h
  split at h
  · exact (List.append_eq_nil_iff.1 h).1
  · split at h
    · exact (List.append_eq_nil_iff.1 h).1
    · exact h

theorem foldl_add_errors (h : (fetched.foldl add r).errors = []) : r.errors = [] := by
  induction fetched generalizing r with
  | nil => exact h
  | cons f fetched ih => exact add_errors (ih h)

/-- The names of the modules of a kind. -/
def stems (fetched : List FetchedModule) (kind : EntityKind) : List String :=
  (fetched.filter fun f => f.kind = kind).map fun f => f.file.stem

theorem foldl_add_declared (h : ∀ f ∈ fetched, f.Declared) :
    (fetched.foldl add r).errors = r.errors ∧
      ∀ kind, (fetched.foldl add r).schema.namesOf kind =
        r.schema.namesOf kind ++ stems fetched kind := by
  induction fetched generalizing r with
  | nil => exact ⟨rfl, fun kind => (List.append_nil _).symm⟩
  | cons f fetched ih =>
    obtain ⟨hf, hfs⟩ := List.forall_mem_cons.1 h
    obtain ⟨herr, hnames⟩ := add_declared (r := r) hf
    obtain ⟨herrs, hall⟩ := ih (r := r.add f) hfs
    refine ⟨herrs.trans herr, fun kind => ?_⟩
    rw [List.foldl_cons, hall kind, hnames kind, List.append_assoc, stems, stems, List.filter_cons]
    by_cases hk : kind = f.kind
    · simp [hk]
    · simp [hk, Ne.symm hk]

/-- **Modules that declare what they are named for are read.** -/
theorem ofModules_declared (root : Path) (h : ∀ f ∈ fetched, f.Declared) :
    (ofModules root fetched).errors = [] ∧
      ∀ kind, (ofModules root fetched).schema.namesOf kind = stems fetched kind := by
  obtain ⟨herr, hnames⟩ := foldl_add_declared (r := start root) h
  refine ⟨herr, fun kind => (hnames kind).trans ?_⟩
  cases kind <;> rfl

/-- **A module that is unreadable is told.** -/
theorem ofModules_unreadable (root : Path) (hf : f ∈ fetched) (h : f.Unreadable) :
    (ofModules root fetched).errors ≠ [] := by
  intro he
  obtain ⟨before, after, rfl⟩ := List.append_of_mem hf
  rw [ofModules, List.foldl_append, List.foldl_cons] at he
  exact add_unreadable h (foldl_add_errors he)

end ReadResult

end SchemaLoom
