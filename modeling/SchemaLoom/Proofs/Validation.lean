/-
  What holds of a schema that is found valid.

  * `Schema.nodup_namesOf`, `Schema.isBindingName_of_mem`: the entities of a kind
    have names of their own, which can be declared;
  * `Schema.nodup_columns_of_helper`, `Schema.nodup_columns_of_table`: and so
    have the columns of each of them;
  * `Schema.checkIdentifiers_of_mem`: so can all that a column names;
  * `Schema.isIdentifier_of_mem_key`: composite keys list columns.
-/
import Mathlib.Data.List.Nodup
import SchemaLoom.Proofs.Results
import SchemaLoom.Validation

namespace SchemaLoom

variable {s : Schema} {issues : List Issue} {i : Issue} {name : String}

theorem severity_of_mem (h : hasErrors issues = false) (hi : i ∈ issues) : i.severity ≠ .error := by
  intro hs
  rw [hasErrors, List.any_eq_false] at h
  exact h i hi (decide_eq_true hs)

/-- Names without repetition repeat none. -/
theorem mem_repeated {names : List String} : name ∈ repeated names ↔ 1 < names.count name := by
  rw [repeated, List.mem_mergeSort, List.mem_filter, List.mem_eraseDups, decide_eq_true_iff]
  refine ⟨And.right, fun h => ⟨?_, h⟩⟩
  exact List.count_pos_iff.1 (Nat.lt_trans Nat.zero_lt_one h)

theorem nodup_of_repeated {names : List String} (h : ∀ name, name ∉ repeated names) :
    names.Nodup := by
  rw [List.nodup_iff_count_le_one]
  exact fun name => Nat.not_lt.1 fun hc => h name (mem_repeated.2 hc)

theorem EntityKind.mem_all (kind : EntityKind) : kind ∈ EntityKind.all := by
  cases kind <;> decide

namespace Schema

/-- The columns of the helpers and the tables. -/
def columns (s : Schema) : List Column :=
  s.helpers.flatMap HelperDef.columns ++ s.tables.flatMap TableDef.columns

theorem mem_columns_of_helper {h : HelperDef} (hh : h ∈ s.helpers) {c : Column}
    (hc : c ∈ h.columns) : c ∈ s.columns :=
  List.mem_append_left _ (List.mem_flatMap.2 ⟨h, hh, hc⟩)

theorem mem_columns_of_table {t : TableDef} (ht : t ∈ s.tables) {c : Column}
    (hc : c ∈ t.columns) : c ∈ s.columns :=
  List.mem_append_right _ (List.mem_flatMap.2 ⟨t, ht, hc⟩)

/-! ## The parts of a validation -/

theorem duplicateEntities_subset (s : Schema) : duplicateEntities s ⊆ s.validate := by
  intro i hi
  simp only [validate, List.mem_append]
  exact .inl (.inl (.inl (.inl (.inl hi))))

theorem invalidNames_subset (s : Schema) : invalidNames s ⊆ s.validate := by
  intro i hi
  simp only [validate, List.mem_append]
  exact .inl (.inl (.inl (.inr hi)))

theorem helperIssues_subset {h : HelperDef} (hh : h ∈ s.helpers) :
    columnsIssues s .helper h.name h.columns ⊆ s.validate := by
  intro i hi
  simp only [validate, List.mem_append]
  exact .inl (.inr (List.mem_flatMap.2 ⟨h, hh, hi⟩))

theorem tableIssues_subset {t : TableDef} (ht : t ∈ s.tables) : tableIssues s t ⊆ s.validate := by
  intro i hi
  simp only [validate, List.mem_append]
  exact .inr (List.mem_flatMap.2 ⟨t, ht, hi⟩)

theorem columnIssues_subset (s : Schema) (kind : EntityKind) (owner : String)
    {columns : List Column} {c : Column} (hc : c ∈ columns) :
    columnIssues s (kind.name ++ " " ++ inQuotes owner) owner c ⊆
      columnsIssues s kind owner columns :=
  fun _ hi => List.mem_append_right _ (List.mem_flatMap.2 ⟨c, hc, hi⟩)

/-! ## Valid schemas -/

section
variable (hv : hasErrors s.validate = false)
include hv

/-- No two entities of a kind share their name. -/
theorem nodup_namesOf (kind : EntityKind) : (s.namesOf kind).Nodup := by
  refine nodup_of_repeated fun name hr => ?_
  have hi : (⟨.duplicateEntity, kind.name ++ " " ++ inQuotes name ++ " is defined more than once"⟩ :
      Issue) ∈ duplicateEntities s :=
    List.mem_flatMap.2 ⟨kind, kind.mem_all, List.mem_map.2 ⟨name, hr, rfl⟩⟩
  exact severity_of_mem hv (duplicateEntities_subset s hi) rfl

/-- The names of the entities can be declared. -/
theorem isBindingName_of_mem {kind : EntityKind} (hn : name ∈ s.namesOf kind) :
    Text.isBindingName name = true := by
  by_contra hb
  have hi : (⟨.invalidIdentifier, kind.name ++ " name " ++ inQuotes name ++
      " is not a valid identifier"⟩ : Issue) ∈ invalidNames s := by
    refine List.mem_flatMap.2 ⟨kind, kind.mem_all, List.mem_map.2 ⟨name, ?_, rfl⟩⟩
    exact List.mem_filter.2 ⟨hn, by simpa using hb⟩
  exact severity_of_mem hv (invalidNames_subset s hi) rfl

/-- All that a column names can stand unquoted. -/
theorem checkIdentifiers_of_mem {c : Column} (hc : c ∈ s.columns) :
    c.checkIdentifiers = .ok () := by
  cases he : c.checkIdentifiers with
  | ok u => rfl
  | error e =>
    have hissue : ∀ label owner, (⟨.invalidIdentifier, label ++ ": " ++ e.message⟩ : Issue) ∈
        columnIssues s label owner c := by
      intro label owner
      simp only [columnIssues, List.mem_append, he]
      exact .inl (.inl (.inr List.mem_cons_self))
    rcases List.mem_append.1 hc with hc | hc
    · obtain ⟨h, hh, hc⟩ := List.mem_flatMap.1 hc
      have hi := helperIssues_subset hh (columnIssues_subset s .helper h.name hc (hissue _ _))
      exact absurd rfl (severity_of_mem hv hi)
    · obtain ⟨t, ht, hc⟩ := List.mem_flatMap.1 hc
      have hi := columnIssues_subset s .table t.name hc (hissue _ _)
      have hi : _ ∈ tableIssues s t :=
        List.mem_append_left _ (List.mem_append_left _ (List.mem_append_left _ hi))
      exact absurd rfl (severity_of_mem hv (tableIssues_subset ht hi))

theorem isIdentifier_of_mem_columns {c : Column} (hc : c ∈ s.columns) :
    Text.isIdentifier c.name = true :=
  Column.checkIdentifiers_eq_ok_iff.1 (checkIdentifiers_of_mem hv hc)
    (c.name, Text.isIdentifier c.name) (by simp [Column.unquotedNames])

theorem isIdentifier_of_mem_columnNames {t : TableDef} (ht : t ∈ s.tables)
    (hn : name ∈ s.columnNames t) : Text.isIdentifier name = true := by
  rcases List.mem_append.1 hn with hn | hn
  · obtain ⟨c, hc, rfl⟩ := List.mem_map.1 hn
    exact isIdentifier_of_mem_columns hv (mem_columns_of_table ht hc)
  · obtain ⟨h, hh, hn⟩ := List.mem_flatMap.1 hn
    obtain ⟨c, hc, rfl⟩ := List.mem_map.1 hn
    obtain ⟨spread, -, hfound⟩ := List.mem_filterMap.1 hh
    have hmem := mem_columns_of_helper (List.mem_of_find?_eq_some hfound) hc
    exact isIdentifier_of_mem_columns hv hmem

theorem nodup_of_columnsIssues {kind : EntityKind} {owner : String} {columns : List Column}
    (hsub : columnsIssues s kind owner columns ⊆ s.validate) :
    (columns.map Column.name).Nodup := by
  refine nodup_of_repeated fun name hr => ?_
  have hi : (⟨.duplicateColumn, kind.name ++ " " ++ inQuotes owner ++ " declares column " ++
      inQuotes name ++ " more than once"⟩ : Issue) ∈ columnsIssues s kind owner columns :=
    List.mem_append_left _ (List.mem_map.2 ⟨name, hr, rfl⟩)
  exact severity_of_mem hv (hsub hi) rfl

/-- No two columns of a helper share their name. -/
theorem nodup_columns_of_helper {h : HelperDef} (hh : h ∈ s.helpers) :
    (h.columns.map Column.name).Nodup :=
  nodup_of_columnsIssues hv (helperIssues_subset hh)

/-- No two columns of a table share their name. -/
theorem nodup_columns_of_table {t : TableDef} (ht : t ∈ s.tables) :
    (t.columns.map Column.name).Nodup :=
  nodup_of_columnsIssues hv fun _ hi => tableIssues_subset ht
    (List.mem_append_left _ (List.mem_append_left _ (List.mem_append_left _ hi)))

/-- A composite key lists columns of its table. -/
theorem mem_columnNames_of_mem_key {t : TableDef} (ht : t ∈ s.tables) {key : List String}
    (hk : t.compositeKey = some key) (hn : name ∈ key) : name ∈ s.columnNames t := by
  by_contra hc
  have hkey : t.compositePrimaryKey = key ∧ 2 ≤ key.length := by
    rw [TableDef.compositeKey] at hk
    split at hk
    next hl =>
      obtain rfl := Option.some.inj hk
      exact ⟨rfl, hl⟩
    · cases hk
  have hi : (⟨.unknownCompositeKeyColumn, "Table " ++ inQuotes t.name ++
      " composite primary key names undefined column " ++ inQuotes name⟩ : Issue) ∈
      compositeKeyIssues s t := by
    rw [compositeKeyIssues, hkey.1]
    split
    · simp at hn
    · simp at hkey
    · exact List.mem_map.2 ⟨name, List.mem_filter.2 ⟨hn, by simpa using hc⟩, rfl⟩
  exact severity_of_mem hv (tableIssues_subset ht (List.mem_append_right _ hi)) rfl

theorem isIdentifier_of_mem_key {t : TableDef} (ht : t ∈ s.tables) {key : List String}
    (hk : t.compositeKey = some key) (hn : name ∈ key) : Text.isIdentifier name = true :=
  isIdentifier_of_mem_columnNames hv ht (mem_columnNames_of_mem_key hv ht hk hn)

end

end Schema

end SchemaLoom
