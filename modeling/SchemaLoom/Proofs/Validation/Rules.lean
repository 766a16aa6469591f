/-
  What the rules of a validation say.

  * `Schema.Breaks`: a rule, told of the schema as a whole;
  * `Schema.exists_issue_iff`: a validation has an issue of a rule exactly if the
    schema breaks it;
  * `Schema.valid_iff`: a schema is valid exactly if it breaks no rule but that
    of the key that is ignored.
-/
import SchemaLoom.Proofs.Change.Lists
import SchemaLoom.Proofs.Validation

namespace SchemaLoom

namespace Schema

/-- Whether a schema breaks a rule. -/
def Breaks (s : Schema) : Rule → Prop
  | .duplicateEntity => ∃ kind, ¬(s.namesOf kind).Nodup
  | .duplicateTableVariable =>
    ∃ t ∈ s.tables, ∃ u ∈ s.tables, t.variableName = u.variableName ∧ t.name ≠ u.name
  | .duplicateColumn =>
    (∃ h ∈ s.helpers, ¬(h.columns.map Column.name).Nodup) ∨
    ∃ t ∈ s.tables, ¬(t.columns.map Column.name).Nodup ∨
      ∃ h ∈ s.spreadHelpers t, ∃ c ∈ h.columns, c.name ∈ t.columns.map Column.name
  | .invalidIdentifier =>
    (∃ kind, ∃ name ∈ s.namesOf kind, Text.isBindingName name = false) ∨
    (∃ t ∈ s.tables, Text.isBindingName t.name = true ∧
      Text.isBindingName t.variableName = false) ∨
    ∃ c ∈ s.columns, c.checkIdentifiers ≠ .ok ()
  | .invalidColumn => ∃ c ∈ s.columns, ∀ kind, c.kind ≠ .ok kind
  | .unknownEnum => ∃ c ∈ s.columns, ∃ e, c.options.enumName = some e ∧ e ∉ s.namesOf .enum
  | .unknownReferenceTable => ∃ c ∈ s.columns, ∃ r, c.options.references = some r ∧
    s.referencedTable? r = none
  | .unknownReferenceColumn => ∃ c ∈ s.columns, ∃ r, c.options.references = some r ∧
    ∃ t, s.referencedTable? r = some t ∧ r.column ∉ s.columnNames t
  | .unknownHelper => ∃ t ∈ s.tables, ∃ h ∈ t.helperReferences, h ∉ s.namesOf .helper
  | .ignoredCompositeKey => ∃ t ∈ s.tables, t.compositePrimaryKey.length = 1
  | .unknownCompositeKeyColumn => ∃ t ∈ s.tables, ∃ key, t.compositeKey = some key ∧
    ∃ c ∈ key, c ∉ s.columnNames t

end Schema

/-! ## Issues of a rule -/

/-- Whether some of the issues is one of the rule. -/
def Tells (issues : List Issue) (r : Rule) : Prop := ∃ i ∈ issues, i.rule = r

section
variable {r rule : Rule}

theorem tells_nil : ¬Tells [] r := fun ⟨_, h, _⟩ => List.not_mem_nil h

theorem tells_singleton {message : String} : Tells [⟨rule, message⟩] r ↔ r = rule := by
  simp [Tells, eq_comm]

theorem tells_append {is js : List Issue} : Tells (is ++ js) r ↔ Tells is r ∨ Tells js r := by
  simp only [Tells, List.mem_append, or_and_right, exists_or]

theorem tells_flatMap {α : Type} {xs : List α} {f : α → List Issue} :
    Tells (xs.flatMap f) r ↔ ∃ x ∈ xs, Tells (f x) r := by
  constructor
  · rintro ⟨i, hi, hr⟩
    obtain ⟨x, hx, hi⟩ := List.mem_flatMap.1 hi
    exact ⟨x, hx, i, hi, hr⟩
  · rintro ⟨x, hx, i, hi, hr⟩
    exact ⟨i, List.mem_flatMap.2 ⟨x, hx, hi⟩, hr⟩

/-- Issues of one rule. -/
theorem tells_map {α : Type} {xs : List α} {text : α → String} :
    Tells (xs.map fun x => ⟨rule, text x⟩) r ↔ r = rule ∧ ∃ x, x ∈ xs := by
  constructor
  · rintro ⟨i, hi, hr⟩
    obtain ⟨x, hx, rfl⟩ := List.mem_map.1 hi
    exact ⟨hr.symm, x, hx⟩
  · rintro ⟨rfl, x, hx⟩
    exact ⟨_, List.mem_map_of_mem hx, rfl⟩

theorem exists_repeated {names : List String} : (∃ n, n ∈ repeated names) ↔ ¬names.Nodup := by
  rw [List.nodup_iff_count_le_one]
  simp [mem_repeated]

end

/-! ## The parts of a validation -/

section
variable {s : Schema} {r : Rule}

theorem tells_duplicateEntities :
    Tells (duplicateEntities s) r ↔ r = .duplicateEntity ∧ s.Breaks .duplicateEntity := by
  simp only [duplicateEntities, tells_flatMap, tells_map, exists_repeated, Schema.Breaks,
    EntityKind.mem_all, true_and]
  exact ⟨fun ⟨k, h, hk⟩ => ⟨h, k, hk⟩, fun ⟨h, k, hk⟩ => ⟨k, h, hk⟩⟩

/-- Tables that share a variable with each other or with a name seen before. -/
theorem tells_variables {seen : List String} {ts : List TableDef} :
    Tells (duplicateVariables seen ts) r ↔ r = .duplicateTableVariable ∧
      ∃ t ∈ ts, ∃ n ∈ seen ++ ts.map TableDef.name,
        tableVariable n = t.variableName ∧ n ≠ t.name := by
  induction ts generalizing seen with
  | nil => simp [duplicateVariables, tells_nil]
  | cons t ts ih =>
    rw [duplicateVariables, tells_append, ih]
    have hhead : Tells (((seen.find? fun other =>
        tableVariable other == t.variableName && other != t.name).map fun other =>
          (⟨.duplicateTableVariable, "Tables " ++ inQuotes other ++ " and " ++ inQuotes t.name ++
            " both generate the variable " ++ inQuotes t.variableName⟩ : Issue)).toList) r ↔
        r = .duplicateTableVariable ∧
          ∃ n ∈ seen, tableVariable n = t.variableName ∧ n ≠ t.name := by
      cases hf : seen.find? fun other =>
          tableVariable other == t.variableName && other != t.name with
      | none =>
        simp only [List.find?_eq_none, Bool.and_eq_true, beq_iff_eq, bne_iff_ne] at hf
        exact iff_of_false tells_nil fun ⟨_, n, hn, hc⟩ => hf n hn hc
      | some n =>
        have hc := List.find?_some hf
        simp only [Bool.and_eq_true, beq_iff_eq, bne_iff_ne] at hc
        exact tells_singleton.trans
          (and_iff_left ⟨n, List.mem_of_find?_eq_some hf, hc⟩).symm
    rw [hhead, ← and_or_left]
    refine and_congr_right fun _ => ⟨?_, ?_⟩
    · rintro (⟨n, hn, hc⟩ | ⟨u, hu, n, hn, hc⟩)
      · exact ⟨t, List.mem_cons_self, n, List.mem_append_left _ hn, hc⟩
      · exact ⟨u, List.mem_cons_of_mem t hu, n, by simpa using hn, hc⟩
    · rintro ⟨u, hu, n, hn, hc, hne⟩
      rcases List.mem_cons.1 hu with rfl | hu
      · rw [List.map_cons, List.mem_append, List.mem_cons, List.mem_map] at hn
        rcases hn with hn | rfl | ⟨v, hv, rfl⟩
        · exact .inl ⟨n, hn, hc, hne⟩
        · exact absurd rfl hne
        · exact .inr ⟨v, hv, u.name, by simp, hc.symm, hne.symm⟩
      · exact .inr ⟨u, hu, n, by simpa using hn, hc, hne⟩

theorem tells_duplicateVariables : Tells (duplicateVariables [] s.tables) r ↔
    r = .duplicateTableVariable ∧ s.Breaks .duplicateTableVariable := by
  rw [tells_variables, List.nil_append]
  refine and_congr_right fun _ => ⟨?_, ?_⟩
  · rintro ⟨t, ht, n, hn, hc⟩
    obtain ⟨u, hu, rfl⟩ := List.mem_map.1 hn
    exact ⟨u, hu, t, ht, hc⟩
  · rintro ⟨u, hu, t, ht, hc⟩
    exact ⟨t, ht, u.name, List.mem_map_of_mem hu, hc⟩

theorem tells_invalidNames : Tells (invalidNames s) r ↔ r = .invalidIdentifier ∧
    ∃ kind, ∃ name ∈ s.namesOf kind, Text.isBindingName name = false := by
  simp only [invalidNames, tells_flatMap, tells_map, EntityKind.mem_all, true_and, List.mem_filter,
    Bool.not_eq_true']
  exact ⟨fun ⟨k, h, hk⟩ => ⟨h, k, hk⟩, fun ⟨h, k, hk⟩ => ⟨k, h, hk⟩⟩

theorem tells_invalidVariables : Tells (invalidVariables s) r ↔ r = .invalidIdentifier ∧
    ∃ t ∈ s.tables, Text.isBindingName t.name = true ∧
      Text.isBindingName t.variableName = false := by
  simp only [invalidVariables, tells_map, List.mem_filter, Bool.and_eq_true, Bool.not_eq_true']

theorem tells_columnIssue {α : Type} {rule : Rule} {label : String} {e : Except ColumnError α} :
    Tells (columnIssue rule label e) r ↔ r = rule ∧ ∀ a, e ≠ .ok a := by
  cases e with
  | ok a => exact iff_of_false tells_nil fun h => h.2 a rfl
  | error e => exact tells_singleton.trans (and_iff_left nofun).symm

theorem tells_unknownEnum {owner : String} {c : Column} :
    Tells (unknownEnum s owner c) r ↔ r = .unknownEnum ∧
      ∃ e, c.options.enumName = some e ∧ e ∉ s.namesOf .enum := by
  cases he : c.options.enumName with
  | none => simp [unknownEnum, he, tells_nil]
  | some e =>
    have hfound : (s.enum? e).isSome = true ↔ e ∈ s.namesOf .enum := by
      rw [← Option.ne_none_iff_isSome, ne_eq, Schema.enum?, find?_name_eq_none, not_not]
      rfl
    simp only [unknownEnum, he, hfound, Option.some.injEq, exists_eq_left']
    split
    next h => exact iff_of_false tells_nil fun hn => hn.2 h
    next h => exact tells_singleton.trans (and_iff_left h).symm

theorem tells_unknownReference {owner : String} {c : Column} :
    Tells (unknownReference s owner c) r ↔
      (r = .unknownReferenceTable ∧
        ∃ f, c.options.references = some f ∧ s.referencedTable? f = none) ∨
      (r = .unknownReferenceColumn ∧ ∃ f, c.options.references = some f ∧
        ∃ t, s.referencedTable? f = some t ∧ f.column ∉ s.columnNames t) := by
  cases hf : c.options.references with
  | none => simp [unknownReference, hf, tells_nil]
  | some f =>
    simp only [unknownReference, hf, Option.some.injEq, exists_eq_left']
    cases ht : s.referencedTable? f with
    | none => simp [tells_singleton]
    | some t =>
      by_cases hc : f.column ∈ s.columnNames t
      · simp [hc, tells_nil]
      · simp [hc, tells_singleton]

/-- What the issues of one column tell. -/
def Column.Breaks (s : Schema) (c : Column) : Rule → Prop
  | .invalidColumn => ∀ kind, c.kind ≠ .ok kind
  | .invalidIdentifier => c.checkIdentifiers ≠ .ok ()
  | .unknownEnum => ∃ e, c.options.enumName = some e ∧ e ∉ s.namesOf .enum
  | .unknownReferenceTable => ∃ f, c.options.references = some f ∧ s.referencedTable? f = none
  | .unknownReferenceColumn => ∃ f, c.options.references = some f ∧
    ∃ t, s.referencedTable? f = some t ∧ f.column ∉ s.columnNames t
  | _ => False

theorem tells_columnIssues {label owner : String} {c : Column} :
    Tells (columnIssues s label owner c) r ↔ c.Breaks s r := by
  have hid : (∀ a : Unit, c.checkIdentifiers ≠ .ok a) ↔ c.checkIdentifiers ≠ .ok () :=
    ⟨fun h => h (), fun h _ => h⟩
  simp only [columnIssues, tells_append, tells_columnIssue, tells_unknownEnum,
    tells_unknownReference, hid]
  cases r <;> simp [Column.Breaks]

theorem tells_columnsIssues {kind : EntityKind} {owner : String} {columns : List Column} :
    Tells (columnsIssues s kind owner columns) r ↔
      (r = .duplicateColumn ∧ ¬(columns.map Column.name).Nodup) ∨ ∃ c ∈ columns, c.Breaks s r := by
  simp only [columnsIssues, tells_append, tells_map, exists_repeated, tells_flatMap,
    tells_columnIssues]

theorem tells_unknownHelpers {t : TableDef} : Tells (unknownHelpers s t) r ↔
    r = .unknownHelper ∧ ∃ h ∈ t.helperReferences, h ∉ s.namesOf .helper := by
  have hnone : ∀ h, (s.helper? h).isNone = true ↔ h ∉ s.namesOf .helper := fun h => by
    rw [Option.isNone_iff_eq_none, Schema.helper?, find?_name_eq_none]
    rfl
  simp only [unknownHelpers, tells_map, List.mem_filter, hnone]

theorem tells_collidingColumns {t : TableDef} : Tells (collidingColumns s t) r ↔
    r = .duplicateColumn ∧ ∃ h ∈ s.spreadHelpers t, ∃ c ∈ h.columns,
      c.name ∈ t.columns.map Column.name := by
  simp only [collidingColumns, tells_flatMap, tells_map, List.mem_filter, List.contains_iff_mem]
  exact ⟨fun ⟨h, hh, hr, hc⟩ => ⟨hr, h, hh, hc⟩, fun ⟨hr, h, hh, hc⟩ => ⟨h, hh, hr, hc⟩⟩

theorem tells_compositeKeyIssues {t : TableDef} : Tells (compositeKeyIssues s t) r ↔
    (r = .ignoredCompositeKey ∧ t.compositePrimaryKey.length = 1) ∨
      (r = .unknownCompositeKeyColumn ∧ ∃ key, t.compositeKey = some key ∧
        ∃ c ∈ key, c ∉ s.columnNames t) := by
  rw [compositeKeyIssues, TableDef.compositeKey]
  split
  next h => simp [h, tells_nil]
  next h => simp [h, tells_singleton]
  next h1 h2 =>
    have hlength : 2 ≤ t.compositePrimaryKey.length := by
      rcases hk : t.compositePrimaryKey with _ | ⟨c, _ | _⟩
      · exact absurd hk h1
      · exact absurd hk (h2 c)
      · simp
    have hne : t.compositePrimaryKey.length ≠ 1 := by omega
    simp only [tells_map, List.mem_filter, Bool.not_eq_true', if_pos hlength, Option.some.injEq,
      exists_eq_left', hne, and_false, false_or, ← Bool.not_eq_true, List.contains_iff_mem]

end

/-! ## The whole validation -/

namespace Schema

variable {s : Schema} {r : Rule}

theorem exists_mem_columns {P : Column → Prop} : (∃ c ∈ s.columns, P c) ↔
    (∃ h ∈ s.helpers, ∃ c ∈ h.columns, P c) ∨ ∃ t ∈ s.tables, ∃ c ∈ t.columns, P c := by
  simp only [columns, List.mem_append, List.mem_flatMap]
  constructor
  · rintro ⟨c, ⟨h, hh, hc⟩ | ⟨t, ht, hc⟩, hp⟩
    · exact .inl ⟨h, hh, c, hc, hp⟩
    · exact .inr ⟨t, ht, c, hc, hp⟩
  · rintro (⟨h, hh, c, hc, hp⟩ | ⟨t, ht, c, hc, hp⟩)
    · exact ⟨c, .inl ⟨h, hh, hc⟩, hp⟩
    · exact ⟨c, .inr ⟨t, ht, hc⟩, hp⟩

/-- **What the rules say**: a validation has an issue of a rule exactly if the
    schema breaks it. -/
theorem exists_issue_iff (s : Schema) (r : Rule) : (∃ i ∈ s.validate, i.rule = r) ↔ s.Breaks r := by
  change Tells s.validate r ↔ s.Breaks r
  simp only [validate, tableIssues, tells_append, tells_flatMap, tells_duplicateEntities,
    tells_duplicateVariables, tells_invalidNames, tells_invalidVariables, tells_columnsIssues,
    tells_unknownHelpers, tells_collidingColumns, tells_compositeKeyIssues]
  cases r <;> simp [Breaks, Column.Breaks, exists_mem_columns, or_assoc]

/-- If no helper and no table lists a column twice, a duplicate column is one that
    a table shares with a helper that it spreads. -/
theorem mem_collidingColumns_of_mem (hh : ∀ h ∈ s.helpers, (h.columns.map Column.name).Nodup)
    (ht : ∀ t ∈ s.tables, (t.columns.map Column.name).Nodup) {i : Issue} (hi : i ∈ s.validate)
    (hr : i.rule = .duplicateColumn) : ∃ t ∈ s.tables, i ∈ collidingColumns s t := by
  have hnot : ∀ {part : List Issue}, ¬Tells part .duplicateColumn → i ∉ part :=
    fun h hi => h ⟨i, hi, hr⟩
  have hcolumns : ∀ {kind : EntityKind} {owner : String} {columns : List Column},
      (columns.map Column.name).Nodup → i ∉ columnsIssues s kind owner columns := by
    refine fun hn => hnot ?_
    rw [tells_columnsIssues]
    rintro (⟨-, h⟩ | ⟨c, -, h⟩)
    · exact h hn
    · exact h
  simp only [validate, tableIssues, List.mem_append, List.mem_flatMap] at hi
  rcases hi with ((((hi | hi) | hi) | hi) | ⟨h, hmem, hi⟩) | ⟨t, hmem, ((hi | hi) | hi) | hi⟩
  · exact absurd hi (hnot (by simp [tells_duplicateEntities]))
  · exact absurd hi (hnot (by simp [tells_duplicateVariables]))
  · exact absurd hi (hnot (by simp [tells_invalidNames]))
  · exact absurd hi (hnot (by simp [tells_invalidVariables]))
  · exact absurd hi (hcolumns (hh h hmem))
  · exact absurd hi (hcolumns (ht t hmem))
  · exact absurd hi (hnot (by simp [tells_unknownHelpers]))
  · exact ⟨t, hmem, hi⟩
  · exact absurd hi (hnot (by simp [tells_compositeKeyIssues]))

/-- **When a schema is valid.** -/
theorem valid_iff : hasErrors s.validate = false ↔ ∀ r, r.severity = .error → ¬s.Breaks r := by
  simp only [← exists_issue_iff]
  constructor
  · rintro hv r hr ⟨i, hi, rfl⟩
    exact severity_of_mem hv hi hr
  · intro h
    rw [hasErrors, List.any_eq_false]
    exact fun i hi hr => h i.rule (of_decide_eq_true hr) ⟨i, hi, rfl⟩

/-- The columns of a valid schema have a kind. -/
theorem exists_kind_of_mem (hv : hasErrors s.validate = false) {c : Column} (hc : c ∈ s.columns) :
    ∃ kind, c.kind = .ok kind := by
  by_contra h
  exact valid_iff.1 hv .invalidColumn rfl ⟨c, hc, fun kind hk => h ⟨kind, hk⟩⟩

end Schema

end SchemaLoom
