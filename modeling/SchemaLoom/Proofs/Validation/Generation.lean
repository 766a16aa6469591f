/-
  Where a validation and the generators agree.

  A validation goes through the names and the columns of a whole schema, while
  each generator checks its own entity again and stops at the first fault.

  * `exists_encodeColumns_iff`: a body can be written exactly if a validation
    finds no fault in the columns by themselves;
  * `Schema.errors_eq_nil_iff_of_local`: so all entities can be written exactly
    if there is no such fault and none of them lacks what it needs;
  * `Schema.generateBatch_agrees`: and if a schema is valid, what cannot be
    written is what is empty.
-/
import SchemaLoom.Proofs.Module.Batch
import SchemaLoom.Proofs.Source.Spelling
import SchemaLoom.Proofs.Validation.Rules

namespace SchemaLoom

/-- A name that can be declared is not blank. -/
theorem isBlankName_of_isBindingName {name : String} (h : Text.isBindingName name = true) :
    isBlankName name = false := by
  rw [Text.isBindingName, Bool.and_eq_true, Text.isIdentifier] at h
  rw [isBlankName]
  cases hcs : name.toList with
  | nil =>
    rw [hcs] at h
    exact absurd h.1 (by decide)
  | cons c cs =>
    rw [hcs, Text.isIdentifierChars, Bool.and_eq_true] at h
    rw [List.all_cons, Bool.and_eq_false_iff]
    left
    by_contra hb
    rw [Bool.not_eq_false] at hb
    rw [Source.isIdentifierStart_of_isBlank hb] at h
    exact absurd h.1.1 (by decide)

/-! ## Columns -/

/-- A column can be written: it has a kind and proper names. -/
def Column.Encodable (c : Column) : Prop :=
  (∃ kind, c.kind = .ok kind) ∧ c.checkIdentifiers = .ok ()

theorem Column.exists_encode_iff {c : Column} : (∃ e, c.encode = .ok e) ↔ c.Encodable := by
  simp only [encode_eq_ok_iff]
  constructor
  · rintro ⟨e, kind, hk, hi, -⟩
    exact ⟨⟨kind, hk⟩, hi⟩
  · rintro ⟨⟨kind, hk⟩, hi⟩
    exact ⟨c.encoded kind, kind, hk, hi, rfl⟩

/-- **A body can be written exactly if each of its columns can.** -/
theorem exists_encodeColumns_iff {columns : List Column} :
    (∃ body, encodeColumns columns = .ok body) ↔ ∀ c ∈ columns, c.Encodable := by
  simp only [encodeColumns_eq_ok_iff, ← Column.exists_encode_iff]
  constructor
  · rintro ⟨_, encoded, h, -⟩ c hc
    obtain ⟨i, hi, rfl⟩ := List.mem_iff_getElem.1 hc
    exact ⟨_, h.get hi (h.length_eq ▸ hi)⟩
  · intro h
    suffices ∃ encoded, List.Forall₂ (fun c e => c.encode = .ok e) columns encoded by
      obtain ⟨encoded, h⟩ := this
      exact ⟨_, encoded, h, rfl⟩
    induction columns with
    | nil => exact ⟨[], .nil⟩
    | cons c columns ih =>
      rw [List.forall_mem_cons] at h
      obtain ⟨e, he⟩ := h.1
      obtain ⟨encoded, hes⟩ := ih h.2
      exact ⟨e :: encoded, .cons he hes⟩

/-! ## Entities that lack what they need -/

/-- An enum is empty if it has no values, or one of which nothing is written. -/
def EnumDef.isEmpty (e : EnumDef) : Bool :=
  e.values.isEmpty || e.values.any fun v => (Text.pascalCase v).isEmpty

/-- A helper is empty if it has no columns. -/
def HelperDef.isEmpty (h : HelperDef) : Bool := h.columns.isEmpty

/-- A table is empty if it has neither columns nor helpers. -/
def TableDef.isEmpty (t : TableDef) : Bool := t.columns.isEmpty && t.helperReferences.isEmpty

theorem EnumDef.isEmpty_eq_false_iff {e : EnumDef} :
    e.isEmpty = false ↔ e.values ≠ [] ∧ ∀ v ∈ e.values, Text.pascalCase v ≠ "" := by
  simp [isEmpty]

theorem HelperDef.isEmpty_eq_false_iff {h : HelperDef} : h.isEmpty = false ↔ h.columns ≠ [] := by
  simp [isEmpty]

theorem TableDef.isEmpty_eq_false_iff {t : TableDef} :
    t.isEmpty = false ↔ t.columns ≠ [] ∨ t.helperReferences ≠ [] := by
  rw [isEmpty, Bool.and_eq_false_iff, List.isEmpty_eq_false_iff, List.isEmpty_eq_false_iff]

section
variable {e : EnumDef} {h : HelperDef} {t : TableDef}

/-- Which enums can be written. -/
theorem EnumDef.exists_generate_iff : (∃ g, e.generate = .ok g) ↔
    Text.isBindingName e.name = true ∧ e.isEmpty = false := by
  simp only [generate_eq_ok_iff, exists_and_left, exists_eq, and_true, isEmpty_eq_false_iff]
  constructor
  · rintro ⟨-, hi, hv, hb⟩
    exact ⟨hb, hi, fun v hv' h => by simpa [h] using hv v hv'⟩
  · rintro ⟨hb, hi, hv⟩
    exact ⟨isBlankName_of_isBindingName hb, hi, fun v hv' => by simpa using hv v hv', hb⟩

/-- Which helpers can be written. -/
theorem HelperDef.exists_generate_iff : (∃ g, h.generate = .ok g) ↔
    Text.isBindingName h.name = true ∧ h.isEmpty = false ∧ ∀ c ∈ h.columns, c.Encodable := by
  simp only [generate_eq_ok_iff, ← exists_encodeColumns_iff, isEmpty_eq_false_iff]
  constructor
  · rintro ⟨g, ⟨-, hi, hb⟩, body, hbody, -⟩
    exact ⟨hb, hi, body, hbody⟩
  · rintro ⟨hb, hi, body, hbody⟩
    exact ⟨_, ⟨isBlankName_of_isBindingName hb, hi, hb⟩, body, hbody, rfl⟩

/-- Which tables can be written. -/
theorem TableDef.exists_generate_iff : (∃ g, t.generate = .ok g) ↔
    (Text.isBindingName t.name = true ∧ Text.isBindingName t.variableName = true) ∧
      t.isEmpty = false ∧ (∀ h ∈ t.helperReferences, Text.isBindingName h = true) ∧
      ∀ c ∈ t.columns, c.Encodable := by
  simp only [generate_eq_ok_iff, ← exists_encodeColumns_iff, isEmpty_eq_false_iff]
  constructor
  · rintro ⟨g, ⟨-, hi, hb, hv, hh⟩, body, hbody, -⟩
    exact ⟨⟨hb, hv⟩, hi, hh, body, hbody⟩
  · rintro ⟨⟨hb, hv⟩, hi, hh, body, hbody⟩
    exact ⟨_, ⟨isBlankName_of_isBindingName hb, hi, hb, hv, hh⟩, body, hbody, rfl⟩

/-- What is reported of an empty enum, whatever its name. -/
theorem EnumDef.generate_of_isEmpty (he : e.isEmpty = true) :
    e.generate = .error .incompleteEnum := by
  rw [isEmpty] at he
  rw [generate, if_pos (by rw [Bool.or_assoc, he, Bool.or_true])]
  rfl

/-- What is reported of an empty helper, whatever its name. -/
theorem HelperDef.generate_of_isEmpty (he : h.isEmpty = true) :
    h.generate = .error .incompleteHelper := by
  rw [isEmpty] at he
  rw [generate, if_pos (by rw [he, Bool.or_true])]
  rfl

/-- What is reported of an empty table that has a name. -/
theorem TableDef.generate_of_isEmpty (hn : Text.isBindingName t.name = true)
    (he : t.isEmpty = true) : t.generate = .error .emptyTable := by
  rw [isEmpty] at he
  rw [generate, if_neg (by simp [isBlankName_of_isBindingName hn]), if_pos he]
  rfl

end

/-! ## Whole schemas -/

namespace Schema

variable {s : Schema}

/-- Nothing fails exactly if each entity can be written. -/
theorem errors_eq_nil_iff : s.generateBatch.errors = [] ↔
    (∀ e ∈ s.enums, ∃ g, e.generate = .ok g) ∧ (∀ h ∈ s.helpers, ∃ g, h.generate = .ok g) ∧
      ∀ t ∈ s.tables, ∃ g, t.generate = .ok g := by
  have hall : s.generateBatch.errors = [] ↔ ∀ a ∈ s.attempts, ∃ g, a = .ok g := by
    constructor
    · exact fun h a ha => exists_of_attempt h ha
    · intro h
      rw [generateBatch, List.filterMap_eq_nil_iff]
      intro a ha
      obtain ⟨g, rfl⟩ := h a ha
      rfl
  rw [hall, attempts, List.append_assoc, List.forall_mem_append, List.forall_mem_append,
    List.forall_mem_map, List.forall_mem_map, List.forall_mem_map]
  simp only [mapError_eq_ok]

/-- Whether a validation finds no fault in the names and the columns by
    themselves. -/
def LocallyValid (s : Schema) : Prop :=
  ∀ i ∈ s.validate, i.rule ≠ .invalidColumn ∧ i.rule ≠ .invalidIdentifier

/-- **What a validation says of names and columns by themselves.** -/
theorem locallyValid_iff : s.LocallyValid ↔
    (∀ kind, ∀ name ∈ s.namesOf kind, Text.isBindingName name = true) ∧
      (∀ t ∈ s.tables, Text.isBindingName t.variableName = true) ∧
      ∀ c ∈ s.columns, c.Encodable := by
  have hrules : s.LocallyValid ↔ ¬s.Breaks .invalidColumn ∧ ¬s.Breaks .invalidIdentifier := by
    simp only [← exists_issue_iff, not_exists, not_and]
    exact ⟨fun h => ⟨fun i hi => (h i hi).1, fun i hi => (h i hi).2⟩,
      fun h i hi => ⟨h.1 i hi, h.2 i hi⟩⟩
  rw [hrules]
  simp only [Breaks, not_or, not_exists, not_and, not_forall, not_not, Bool.not_eq_false,
    Column.Encodable]
  constructor
  · rintro ⟨hkind, hname, hvar, hids⟩
    refine ⟨hname, fun t ht => ?_, fun c hc => ⟨hkind c hc, hids c hc⟩⟩
    exact hvar t ht (hname .table t.name (List.mem_map_of_mem ht))
  · rintro ⟨hname, hvar, hcol⟩
    exact ⟨fun c hc => (hcol c hc).1, hname, fun t ht _ => hvar t ht, fun c hc => (hcol c hc).2⟩

/-- **All entities can be written exactly if nothing is wrong with the names and
    the columns by themselves and no entity lacks what it needs.** -/
theorem errors_eq_nil_iff_of_local : s.generateBatch.errors = [] ↔
    s.LocallyValid ∧ (∀ e ∈ s.enums, e.isEmpty = false) ∧ (∀ h ∈ s.helpers, h.isEmpty = false) ∧
      (∀ t ∈ s.tables, t.isEmpty = false) ∧
      ∀ t ∈ s.tables, ∀ h ∈ t.helperReferences, Text.isBindingName h = true := by
  simp only [errors_eq_nil_iff, EnumDef.exists_generate_iff, HelperDef.exists_generate_iff,
    TableDef.exists_generate_iff, locallyValid_iff]
  constructor
  · rintro ⟨he, hh, ht⟩
    refine ⟨⟨fun kind => ?_, fun t h => (ht t h).1.2, fun c hc => ?_⟩, fun e h => (he e h).2,
      fun h h' => (hh h h').2.1, fun t h => (ht t h).2.1, fun t h => (ht t h).2.2.1⟩
    · cases kind with
      | enum => exact List.forall_mem_map.2 fun e h => (he e h).1
      | helper => exact List.forall_mem_map.2 fun h h' => (hh h h').1
      | table => exact List.forall_mem_map.2 fun t h => (ht t h).1.1
    · rcases List.mem_append.1 hc with hc | hc
      · obtain ⟨h, hmem, hc⟩ := List.mem_flatMap.1 hc
        exact (hh h hmem).2.2 c hc
      · obtain ⟨t, hmem, hc⟩ := List.mem_flatMap.1 hc
        exact (ht t hmem).2.2.2 c hc
  · rintro ⟨⟨hname, hvar, hcol⟩, he, hh, ht, href⟩
    refine ⟨fun e h => ⟨hname .enum _ (List.mem_map_of_mem h), he e h⟩, fun h hmem => ?_,
      fun t hmem => ?_⟩
    · exact ⟨hname .helper _ (List.mem_map_of_mem hmem), hh h hmem,
        fun c hc => hcol c (mem_columns_of_helper hmem hc)⟩
    · exact ⟨⟨hname .table _ (List.mem_map_of_mem hmem), hvar t hmem⟩, ht t hmem, href t hmem,
        fun c hc => hcol c (mem_columns_of_table hmem hc)⟩

/-- A valid schema has no fault in the names and the columns by themselves. -/
theorem LocallyValid.of_valid (hv : hasErrors s.validate = false) : s.LocallyValid := by
  intro i hi
  have herror := severity_of_mem hv hi
  constructor
  · intro hr
    exact herror (by rw [Issue.severity, hr]; rfl)
  · intro hr
    exact herror (by rw [Issue.severity, hr]; rfl)

/-- The tables of a valid schema spread helpers that can be declared. -/
theorem isBindingName_of_helperReference (hv : hasErrors s.validate = false) {t : TableDef}
    (ht : t ∈ s.tables) {h : String} (hh : h ∈ t.helperReferences) :
    Text.isBindingName h = true := by
  have hdefined : h ∈ s.namesOf .helper := by
    by_contra hc
    exact valid_iff.1 hv .unknownHelper rfl ⟨t, ht, h, hh, hc⟩
  exact isBindingName_of_mem hv hdefined

/-- The errors that empty entities give, in the order of the entities. -/
def emptyErrors (s : Schema) : List EntityError :=
  (s.enums.filter EnumDef.isEmpty).map (fun e => ⟨.enum, e.name, .incompleteEnum⟩) ++
    (s.helpers.filter HelperDef.isEmpty).map (fun h => ⟨.helper, h.name, .incompleteHelper⟩) ++
    (s.tables.filter TableDef.isEmpty).map (fun t => ⟨.table, t.name, .emptyTable⟩)

/-- What fails among entities of one kind, where the empty ones fail with one
    fault and `failed` keeps what fails. -/
theorem errors_of_attempts {α : Type} {generate : α → Except GenerationError GeneratedEntity}
    {name : α → String} {isEmpty : α → Bool} {fault : GenerationError} (kind : EntityKind)
    {failed : Except EntityError GeneratedEntity → Option EntityError}
    (hok : ∀ g, failed (.ok g) = none) (herror : ∀ e, failed (.error e) = some e) {xs : List α}
    (hempty : ∀ x ∈ xs, isEmpty x = true → generate x = .error fault)
    (hfull : ∀ x ∈ xs, isEmpty x = false → ∃ g, generate x = .ok g) :
    (xs.map fun x => (generate x).mapError (EntityError.mk kind (name x))).filterMap failed =
      (xs.filter isEmpty).map fun x => ⟨kind, name x, fault⟩ := by
  induction xs with
  | nil => rfl
  | cons x xs ih =>
    rw [List.forall_mem_cons] at hempty hfull
    rw [List.map_cons]
    cases hx : isEmpty x with
    | true =>
      rw [List.filter_cons_of_pos hx, List.map_cons, hempty.1 hx, Except.mapError,
        List.filterMap_cons_some (herror _), ih hempty.2 hfull.2]
    | false =>
      obtain ⟨g, hg⟩ := hfull.1 hx
      rw [List.filter_cons_of_neg (by simp [hx]), hg, Except.mapError,
        List.filterMap_cons_none (hok g), ih hempty.2 hfull.2]

/-- **What of a valid schema cannot be written is what is empty.** -/
theorem errors_of_valid (hv : hasErrors s.validate = false) :
    s.generateBatch.errors = s.emptyErrors := by
  obtain ⟨hname, hvar, hcol⟩ := locallyValid_iff.1 (.of_valid hv)
  rw [generateBatch]
  dsimp only
  rw [attempts, List.filterMap_append, List.filterMap_append, emptyErrors]
  congr 1
  · congr 1
    · refine errors_of_attempts .enum (fun _ => rfl) (fun _ => rfl) ?_ ?_
      · exact fun e _ he => e.generate_of_isEmpty he
      · exact fun e hmem he =>
          EnumDef.exists_generate_iff.2 ⟨hname .enum _ (List.mem_map_of_mem hmem), he⟩
    · refine errors_of_attempts .helper (fun _ => rfl) (fun _ => rfl) ?_ ?_
      · exact fun h _ he => h.generate_of_isEmpty he
      · exact fun h hmem he => HelperDef.exists_generate_iff.2
          ⟨hname .helper _ (List.mem_map_of_mem hmem), he,
            fun c hc => hcol c (mem_columns_of_helper hmem hc)⟩
  · refine errors_of_attempts .table (fun _ => rfl) (fun _ => rfl) ?_ ?_
    · exact fun t hmem he =>
        TableDef.generate_of_isEmpty (hname .table _ (List.mem_map_of_mem hmem)) he
    · exact fun t hmem he => TableDef.exists_generate_iff.2
        ⟨⟨hname .table _ (List.mem_map_of_mem hmem), hvar t hmem⟩, he,
          fun h hh => isBindingName_of_helperReference hv hmem hh,
          fun c hc => hcol c (mem_columns_of_table hmem hc)⟩

/-- **A validation and the generators agree on what is wrong with an entity by
    itself**: all entities can be written exactly if no column and no name is
    found invalid, no entity is empty and the helpers that are spread can be
    declared.  If a validation finds no error at all, what is reported of the
    generation is just the empty entities, each once and in their order. -/
theorem generateBatch_agrees (s : Schema) :
    (s.generateBatch.errors = [] ↔
      (∀ i ∈ s.validate, i.rule ≠ .invalidColumn ∧ i.rule ≠ .invalidIdentifier) ∧
      (∀ e ∈ s.enums, e.values ≠ [] ∧ ∀ v ∈ e.values, Text.pascalCase v ≠ "") ∧
      (∀ h ∈ s.helpers, h.columns ≠ []) ∧
      (∀ t ∈ s.tables, t.columns ≠ [] ∨ t.helperReferences ≠ []) ∧
      ∀ t ∈ s.tables, ∀ h ∈ t.helperReferences, Text.isBindingName h = true) ∧
    (hasErrors s.validate = false → s.generateBatch.errors = s.emptyErrors) := by
  refine ⟨?_, errors_of_valid⟩
  have h := errors_eq_nil_iff_of_local (s := s)
  simp only [EnumDef.isEmpty_eq_false_iff, HelperDef.isEmpty_eq_false_iff,
    TableDef.isEmpty_eq_false_iff] at h
  exact h

/-- Of two enums without a value to write and a table, the enums are reported. -/
theorem generateBatch_agrees_marks :
    let s : Schema := {
      outputDir := "db"
      enums := [⟨"Role", []⟩, ⟨"Mark", ["done", "-"]⟩, ⟨"Step", ["first"]⟩]
      tables := [{ name := "users", columns := [.ofEnum "step" "Step"] }] }
    hasErrors s.validate = false ∧ s.generateBatch.errors =
      [⟨.enum, "Role", .incompleteEnum⟩, ⟨.enum, "Mark", .incompleteEnum⟩] := by
  intro s
  have hv : hasErrors s.validate = false := by decide +kernel
  have hempty : s.emptyErrors =
      [⟨.enum, "Role", .incompleteEnum⟩, ⟨.enum, "Mark", .incompleteEnum⟩] := by decide
  exact ⟨hv, hempty ▸ (generateBatch_agrees s).2 hv⟩

end Schema

end SchemaLoom
