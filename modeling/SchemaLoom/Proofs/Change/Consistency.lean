/-
  Whether the permitted changes leave a valid schema.

  What refers to an entity may stay while the entity goes.  Which rules the
  result may break depends on the two impacts that a policy can refuse
  (`Policy.mayBreak`).

  * `Schema.merge_permitted`: no other rule is broken, and none if no change is
    refused; the only duplicate columns are those of a table and its helpers;
  * `Schema.brokenRules_journal`: every one of these rules is broken by some
    schemas.
-/
import SchemaLoom.Proofs.Change.Permitted
import SchemaLoom.Proofs.Validation.Rules

namespace SchemaLoom

/-- The rules that valid schemas may come to break when a policy permits only
    some of the changes between them. -/
def Policy.mayBreak (policy : Policy) : Rule → Bool
  | .duplicateTableVariable => !policy.allowBreaking
  | .duplicateColumn | .unknownReferenceColumn => !policy.permitsAll
  | .unknownEnum | .unknownReferenceTable => policy.allowBreaking && !policy.allowWarning
  | .unknownHelper => policy.allowWarning && !policy.allowBreaking
  | .unknownCompositeKeyColumn => policy.allowBreaking != policy.allowWarning
  | .duplicateEntity | .invalidIdentifier | .invalidColumn | .ignoredCompositeKey => false

/-! ## The rules -/

namespace Schema

/-- Whether a property of columns holds of a new one, or of an old one if some
    changes are refused. -/
def Stems (policy : Policy) (old new : Schema) (P : Column → Prop) : Prop :=
  (∃ c ∈ new.columns, P c) ∨ (policy.permitsAll = false ∧ ∃ c ∈ old.columns, P c)

section
variable (policy : Policy) {old new : Schema} (ho : old.Distinct) (hn : new.Distinct)
  (hvo : hasErrors old.validate = false) (hvn : hasErrors new.validate = false)
include ho hn

variable {c : Column} (hc : c ∈ (old.replayed policy.lets new).columns)
include hc

theorem stems_references :
    Stems policy old new fun k => k.options.references = c.options.references := by
  rcases mem_columns_replayed policy ho hn hc with h | ⟨hp, h⟩ | ⟨o, hmo, n, hmn, _, _, -, rfl⟩
  · exact .inl ⟨c, h, rfl⟩
  · exact .inr ⟨hp, c, h, rfl⟩
  · rw [Stems, Column.references_replayed]
    split
    · exact .inl ⟨n, hmn, rfl⟩
    next hw =>
      exact .inr ⟨Policy.permitsAll_of_warning (Bool.eq_false_iff.2 hw), o, hmo, rfl⟩

include hvo hvn

theorem stems_kind : Stems policy old new fun k => k.name = c.name ∧ k.kind = c.kind ∧
    k.options.enumName = c.options.enumName := by
  rcases mem_columns_replayed policy ho hn hc with h | ⟨hp, h⟩ | ⟨o, hmo, n, hmn, k, s, hname, rfl⟩
  · exact .inl ⟨c, h, rfl, rfl, rfl⟩
  · exact .inr ⟨hp, c, h, rfl, rfl, rfl⟩
  · obtain ⟨a, ha⟩ := exists_kind_of_mem hvo hmo
    obtain ⟨b, hb⟩ := exists_kind_of_mem hvn hmn
    obtain ⟨hkind, henum⟩ := Column.kind_replayed policy k s hname ha hb
    rw [Stems, hkind, henum, Column.name_replayed]
    split
    · exact .inl ⟨n, hmn, hname.symm, rfl, rfl⟩
    next hw =>
      exact .inr ⟨Policy.permitsAll_of_breaking (Bool.eq_false_iff.2 hw), o, hmo, rfl, rfl, rfl⟩

end

/-! ## Rules that depend on the policy -/

/-- Whether a reference finds a table depends on the names of the tables. -/
theorem referencedTable?_eq_none {s : Schema} {r : ColumnReference} :
    s.referencedTable? r = none ↔
      ∀ name ∈ s.namesOf .table, tableVariable name ≠ tableVariable r.table := by
  rw [referencedTable?, List.find?_eq_none]
  simp [namesOf, TableDef.variableName]

section
variable {policy : Policy} {old new : Schema} (ho : old.Distinct) (hn : new.Distinct)
  (hvo : hasErrors old.validate = false) (hvn : hasErrors new.validate = false)
include ho hn hvo hvn

/-- The name of an entity is left where the policy does not remove its kind. -/
theorem not_breaks_unknownEnum (h : policy.allowBreaking = true → policy.allowWarning = true) :
    ¬(old.replayed policy.lets new).Breaks .unknownEnum := by
  rintro ⟨c, hc, e, he, hunknown⟩
  rw [mem_namesOf_replayed policy ho hn, not_or] at hunknown
  rcases stems_kind policy ho hn hvo hvn hc with ⟨k, hk, -, -, hname⟩ | ⟨hp, k, hk, -, -, hname⟩
  · exact valid_iff.1 hvn .unknownEnum rfl ⟨k, hk, e, hname.trans he, hunknown.1⟩
  · have hb : policy.allowBreaking = false := Bool.eq_false_iff.2 fun hb =>
      Bool.eq_false_iff.1 hp (Policy.permitsAll_eq_true.2 ⟨hb, h hb⟩)
    exact valid_iff.1 hvo .unknownEnum rfl
      ⟨k, hk, e, hname.trans he, fun hmem => hunknown.2 ⟨hb, hmem⟩⟩

theorem not_breaks_unknownReferenceTable
    (h : policy.allowBreaking = true → policy.allowWarning = true) :
    ¬(old.replayed policy.lets new).Breaks .unknownReferenceTable := by
  rintro ⟨c, hc, r, hr, hnone⟩
  rw [referencedTable?_eq_none] at hnone
  simp only [mem_namesOf_replayed policy ho hn] at hnone
  rcases stems_references policy ho hn hc with ⟨k, hk, href⟩ | ⟨hp, k, hk, href⟩
  · refine valid_iff.1 hvn .unknownReferenceTable rfl ⟨k, hk, r, href.trans hr, ?_⟩
    exact referencedTable?_eq_none.2 fun name hname => hnone name (.inl hname)
  · have hb : policy.allowBreaking = false := Bool.eq_false_iff.2 fun hb =>
      Bool.eq_false_iff.1 hp (Policy.permitsAll_eq_true.2 ⟨hb, h hb⟩)
    refine valid_iff.1 hvo .unknownReferenceTable rfl ⟨k, hk, r, href.trans hr, ?_⟩
    exact referencedTable?_eq_none.2 fun name hname => hnone name (.inr ⟨hb, hname⟩)

theorem not_breaks_unknownHelper (h : policy.allowWarning = true → policy.allowBreaking = true) :
    ¬(old.replayed policy.lets new).Breaks .unknownHelper := by
  rintro ⟨t, ht, r, hr, hunknown⟩
  rw [mem_namesOf_replayed policy ho hn, not_or] at hunknown
  have hnew : ∀ n ∈ new.tables, r ∉ n.helperReferences := fun n hmem hr =>
    valid_iff.1 hvn .unknownHelper rfl ⟨n, hmem, r, hr, hunknown.1⟩
  have hold : policy.allowWarning = false → ∀ o ∈ old.tables, r ∉ o.helperReferences :=
    fun hw o hmem hr => valid_iff.1 hvo .unknownHelper rfl
      ⟨o, hmem, r, hr, fun hname => hunknown.2 ⟨hw, hname⟩⟩
  rcases (mem_tables_replayed policy ho hn).1 ht with ⟨ht, -, hb⟩ | ⟨ht, -⟩ | ⟨q, hq, rfl⟩
  · have hw : policy.allowWarning = false := Bool.eq_false_iff.2 fun hw => by
      rw [h hw] at hb
      cases hb
    exact hold hw t ht hr
  · exact hnew t ht hr
  · obtain ⟨hqo, hqn, -⟩ := (mem_paired ho.tableNames).1 hq
    rcases (mem_references_replayed policy ho hn hq).1 hr with hr | ⟨hw, hr⟩
    · exact hnew q.2 hqn hr
    · exact hold hw q.1 hqo hr

theorem not_breaks_unknownCompositeKeyColumn (h : policy.allowBreaking = policy.allowWarning) :
    ¬(old.replayed policy.lets new).Breaks .unknownCompositeKeyColumn := by
  rintro ⟨t, ht, key, hkey, c, hc, hunknown⟩
  have hold : ∀ o ∈ old.tables, o.compositeKey = some key → c ∈ old.columnNames o :=
    fun o hmem hk => mem_columnNames_of_mem_key hvo hmem hk hc
  rcases (mem_tables_replayed policy ho hn).1 ht with ⟨ht, -, hb⟩ | ⟨ht, -⟩ | ⟨q, hq, rfl⟩
  · exact hunknown (columnNames_of_old policy ho hn (h ▸ hb) t (hold t ht hkey))
  · exact hunknown (columnNames_of_new policy ho hn t (mem_columnNames_of_mem_key hvn ht hkey hc))
  · obtain ⟨hqo, hqn, -⟩ := (mem_paired ho.tableNames).1 hq
    have hkind := TableDef.compositeKey_replayed policy hkey hc
    split at hkind
    next hb =>
      obtain ⟨k, hk, hc⟩ := hkind
      exact hunknown (columnNames_of_pair_new policy ho hn hq (h ▸ hb)
        (mem_columnNames_of_mem_key hvn hqn hk hc))
    next hb =>
      have hb := Bool.eq_false_iff.2 hb
      exact hunknown (columnNames_of_pair_old policy ho hn hq hb (h ▸ hb) (hold q.1 hqo hkind))

end

/-- Tables stem from new ones of their name if breaking changes are permitted. -/
theorem exists_new_of_mem_tables {policy : Policy} {old new : Schema} (ho : old.Distinct)
    (hn : new.Distinct) (hb : policy.allowBreaking = true) {t : TableDef}
    (ht : t ∈ (old.replayed policy.lets new).tables) :
    t ∈ new.tables ∨
      ∃ q ∈ paired TableDef.name old.tables new.tables, q.1.replayed policy.lets q.2 = t := by
  rcases (mem_tables_replayed policy ho hn).1 ht with ⟨-, -, hr⟩ | ⟨ht, -⟩ | hq
  · exact absurd (hr.symm.trans hb) (by decide)
  · exact .inl ht
  · exact .inr hq

theorem not_breaks_duplicateTableVariable {policy : Policy} {old new : Schema} (ho : old.Distinct)
    (hn : new.Distinct) (hvn : hasErrors new.validate = false) (hb : policy.allowBreaking = true) :
    ¬(old.replayed policy.lets new).Breaks .duplicateTableVariable := by
  have hnew : ∀ t ∈ (old.replayed policy.lets new).tables, ∃ n ∈ new.tables, n.name = t.name := by
    intro t ht
    rcases exists_new_of_mem_tables ho hn hb ht with ht | ⟨q, hq, rfl⟩
    · exact ⟨t, ht, rfl⟩
    · obtain ⟨-, hqn, hname⟩ := (mem_paired ho.tableNames).1 hq
      exact ⟨q.2, hqn, hname.symm⟩
  rintro ⟨t, ht, u, hu, hvariable, hne⟩
  obtain ⟨n, hmn, hn'⟩ := hnew t ht
  obtain ⟨m, hmm, hm'⟩ := hnew u hu
  rw [TableDef.variableName, TableDef.variableName, ← hn', ← hm'] at hvariable
  exact valid_iff.1 hvn .duplicateTableVariable rfl ⟨n, hmn, m, hmm, hvariable, by rwa [hn', hm']⟩

/-! ## Rules that only a policy that permits all changes keeps -/

/-- A table of the result is, in names, the new table. -/
structure SameParts (merged new : Schema) (t n : TableDef) : Prop where
  name : n.name = t.name
  own : ∀ c ∈ t.columns.map Column.name, c ∈ n.columns.map Column.name
  references : t.helperReferences ⊆ n.helperReferences
  columnNames : new.columnNames n ⊆ merged.columnNames t

section
variable {policy : Policy} {old new : Schema} (ho : old.Distinct) (hn : new.Distinct)
  (hvn : hasErrors new.validate = false) (hp : policy.permitsAll = true)
include ho hn hp

theorem exists_sameParts {t : TableDef} (ht : t ∈ (old.replayed policy.lets new).tables) :
    ∃ n ∈ new.tables, SameParts (old.replayed policy.lets new) new t n := by
  obtain ⟨hb, hw⟩ := Policy.permitsAll_eq_true.1 hp
  rcases exists_new_of_mem_tables ho hn hb ht with ht | ⟨q, hq, rfl⟩
  · exact ⟨t, ht, rfl, fun _ => id, List.Subset.refl _, columnNames_of_new policy ho hn t⟩
  · obtain ⟨-, hqn, hname⟩ := (mem_paired ho.tableNames).1 hq
    refine ⟨q.2, hqn, hname.symm, fun c hc => ?_, fun r hr => ?_,
      columnNames_of_pair_new policy ho hn hq hw⟩
    · rcases (mem_ownNames_replayed policy ho hn hq).1 hc with ⟨-, hc | hb'⟩ | ⟨n, hmem, rfl, -⟩
      · exact hc
      · exact absurd (hb'.symm.trans hb) (by decide)
      · exact List.mem_map_of_mem hmem
    · rcases (mem_references_replayed policy ho hn hq).1 hr with hr | ⟨hw', -⟩
      · exact hr
      · exact absurd (hw'.symm.trans hw) (by decide)

include hvn

theorem not_breaks_unknownReferenceColumn :
    ¬(old.replayed policy.lets new).Breaks .unknownReferenceColumn := by
  rintro ⟨c, hc, r, hr, t, hfound, hunknown⟩
  have hvariable : t.variableName = tableVariable r.table := by simpa using List.find?_some hfound
  obtain ⟨n, hmem, hn'⟩ := exists_sameParts ho hn hp (List.mem_of_find?_eq_some hfound)
  rcases stems_references policy ho hn hc with ⟨k, hk, href⟩ | ⟨hp', -⟩
  · cases hnew : new.referencedTable? r with
    | none => exact valid_iff.1 hvn .unknownReferenceTable rfl ⟨k, hk, r, href.trans hr, hnew⟩
    | some m =>
      have hmvariable : m.variableName = tableVariable r.table := by
        simpa using List.find?_some hnew
      have hmm := List.mem_of_find?_eq_some hnew
      have hname : m.name = n.name := by
        by_contra hne
        refine valid_iff.1 hvn .duplicateTableVariable rfl ⟨m, hmm, n, hmem, ?_, hne⟩
        rw [hmvariable, TableDef.variableName, hn'.name]
        exact hvariable.symm
      obtain rfl := eq_of_name_eq hn.tableNames hmm hmem hname
      refine valid_iff.1 hvn .unknownReferenceColumn rfl ⟨k, hk, r, href.trans hr, m, hnew, ?_⟩
      exact fun hcolumn => hunknown (hn'.columnNames hcolumn)
  · exact absurd (hp'.symm.trans hp) (by decide)

/-- No helper of a table has one of its columns. -/
theorem not_collides {t : TableDef} (ht : t ∈ (old.replayed policy.lets new).tables)
    {g : HelperDef} (hg : g ∈ (old.replayed policy.lets new).spreadHelpers t) {c : Column}
    (hc : c ∈ g.columns) : c.name ∉ t.columns.map Column.name := by
  intro hown
  obtain ⟨r, hr, hfound⟩ := List.mem_filterMap.1 hg
  have hname : g.name = r := by simpa using List.find?_some hfound
  obtain ⟨n, hmem, hn'⟩ := exists_sameParts ho hn hp ht
  have hcolumn := (helperColumn_replayed policy ho hn).1
    ⟨g, List.mem_of_find?_eq_some hfound, hname, List.mem_map_of_mem hc⟩
  rcases hcolumn with ⟨k, hk, hkname, hc⟩ | ⟨hw, -⟩
  · obtain ⟨d, hd, hdname⟩ := List.mem_map.1 hc
    have hspread : k ∈ new.spreadHelpers n := List.mem_filterMap.2
      ⟨r, hn'.references hr, (find?_name_eq_some hn.helperNames).2 ⟨hk, hkname⟩⟩
    exact valid_iff.1 hvn .duplicateColumn rfl
      (.inr ⟨n, hmem, .inr ⟨k, hspread, d, hd, hdname ▸ hn'.own _ hown⟩⟩)
  · exact absurd (hw.symm.trans (Policy.permitsAll_eq_true.1 hp).2) (by decide)

end

/-! ## Rules that every policy keeps -/

section
variable {policy : Policy} {old new : Schema} (ho : old.Distinct) (hn : new.Distinct)
include ho hn

theorem nodup_helper_replayed {g : HelperDef} (hg : g ∈ (old.replayed policy.lets new).helpers) :
    (g.columns.map Column.name).Nodup := by
  rcases (mem_helpers_replayed policy ho hn).1 hg with ⟨hg, -⟩ | ⟨hg, -⟩ | ⟨q, hq, rfl⟩
  · exact ho.helpers g hg
  · exact hn.helpers g hg
  · obtain ⟨hqo, hqn, -⟩ := (mem_paired ho.helperNames).1 hq
    exact nodup_columnReplay policy.lets (ho.helpers _ hqo) (hn.helpers _ hqn)

theorem nodup_table_replayed {t : TableDef} (ht : t ∈ (old.replayed policy.lets new).tables) :
    (t.columns.map Column.name).Nodup := by
  rcases (mem_tables_replayed policy ho hn).1 ht with ⟨ht, -⟩ | ⟨ht, -⟩ | ⟨q, hq, rfl⟩
  · exact (ho.tables t ht).columns
  · exact (hn.tables t ht).columns
  · obtain ⟨hqo, hqn, -⟩ := (mem_paired ho.tableNames).1 hq
    exact nodup_columnReplay policy.lets (ho.tables _ hqo).columns (hn.tables _ hqn).columns

variable (hvo : hasErrors old.validate = false) (hvn : hasErrors new.validate = false)
include hvo hvn

theorem not_breaks_invalidColumn : ¬(old.replayed policy.lets new).Breaks .invalidColumn := by
  rintro ⟨c, hc, hkind⟩
  rcases stems_kind policy ho hn hvo hvn hc with ⟨k, hk, -, he, -⟩ | ⟨-, k, hk, -, he, -⟩
  · obtain ⟨kind, hok⟩ := exists_kind_of_mem hvn hk
    exact hkind kind (he ▸ hok)
  · obtain ⟨kind, hok⟩ := exists_kind_of_mem hvo hk
    exact hkind kind (he ▸ hok)

/-- The names of a column stem from columns of valid schemas. -/
theorem checkIdentifiers_replayed {c : Column}
    (hc : c ∈ (old.replayed policy.lets new).columns) : c.checkIdentifiers = .ok () := by
  have hkind : ∃ k : Column, k.checkIdentifiers = .ok () ∧ k.name = c.name ∧
      k.options.enumName = c.options.enumName := by
    rcases stems_kind policy ho hn hvo hvn hc with ⟨k, hk, h, -, he⟩ | ⟨-, k, hk, h, -, he⟩
    · exact ⟨k, checkIdentifiers_of_mem hvn hk, h, he⟩
    · exact ⟨k, checkIdentifiers_of_mem hvo hk, h, he⟩
  have hreferences : ∃ k : Column, k.checkIdentifiers = .ok () ∧
      k.options.references = c.options.references := by
    rcases stems_references policy ho hn hc with ⟨k, hk, h⟩ | ⟨-, k, hk, h⟩
    · exact ⟨k, checkIdentifiers_of_mem hvn hk, h⟩
    · exact ⟨k, checkIdentifiers_of_mem hvo hk, h⟩
  obtain ⟨k, hk, hname, henum⟩ := hkind
  obtain ⟨l, hl, href⟩ := hreferences
  obtain ⟨hname', henum', -⟩ := Column.checkIdentifiers_eq_ok.1 hk
  obtain ⟨-, -, href'⟩ := Column.checkIdentifiers_eq_ok.1 hl
  exact Column.checkIdentifiers_eq_ok.2 ⟨hname ▸ hname', henum ▸ henum', href ▸ href'⟩

theorem not_breaks_invalidIdentifier :
    ¬(old.replayed policy.lets new).Breaks .invalidIdentifier := by
  rintro (⟨kind, name, hname, hb⟩ | ⟨t, ht, hb, hv⟩ | ⟨c, hc, hb⟩)
  · rcases (mem_namesOf_replayed policy ho hn kind).1 hname with hname | ⟨-, hname⟩
    · exact absurd (hb.symm.trans (isBindingName_of_mem hvn hname)) (by decide)
    · exact absurd (hb.symm.trans (isBindingName_of_mem hvo hname)) (by decide)
  · have hvariable : ∀ {s : Schema}, hasErrors s.validate = false → t.name ∉ s.namesOf .table := by
      rintro s hvs hname
      obtain ⟨u, hu, hu'⟩ := List.mem_map.1 hname
      refine valid_iff.1 hvs .invalidIdentifier rfl (.inr (.inl ⟨u, hu, hu' ▸ hb, ?_⟩))
      rw [TableDef.variableName, hu']
      exact hv
    rcases (mem_namesOf_replayed policy ho hn .table).1 (List.mem_map_of_mem ht) with h | ⟨-, h⟩
    · exact hvariable hvn h
    · exact hvariable hvo h
  · exact hb (checkIdentifiers_replayed ho hn hvo hvn hc)

/-- The rules that are broken are among those of the policy. -/
theorem mayBreak_of_breaks {r : Rule} (hr : r.severity = .error)
    (hb : (old.replayed policy.lets new).Breaks r) : policy.mayBreak r = true := by
  by_contra hmay
  have hmay := Bool.eq_false_iff.2 hmay
  cases r with
  | duplicateEntity =>
    obtain ⟨kind, hkind⟩ := hb
    exact hkind (nodup_namesOf_replayed policy ho hn kind)
  | duplicateTableVariable =>
    exact not_breaks_duplicateTableVariable ho hn hvn (by simpa [Policy.mayBreak] using hmay) hb
  | duplicateColumn =>
    have hp : policy.permitsAll = true := by simpa [Policy.mayBreak] using hmay
    rcases hb with ⟨g, hg, hdup⟩ | ⟨t, ht, hdup | ⟨g, hg, c, hc, hown⟩⟩
    · exact hdup (nodup_helper_replayed ho hn hg)
    · exact hdup (nodup_table_replayed ho hn ht)
    · exact not_collides ho hn hvn hp ht hg hc hown
  | invalidIdentifier => exact not_breaks_invalidIdentifier ho hn hvo hvn hb
  | invalidColumn => exact not_breaks_invalidColumn ho hn hvo hvn hb
  | unknownEnum =>
    exact not_breaks_unknownEnum ho hn hvo hvn (by simpa [Policy.mayBreak] using hmay) hb
  | unknownReferenceTable =>
    exact not_breaks_unknownReferenceTable ho hn hvo hvn (by simpa [Policy.mayBreak] using hmay) hb
  | unknownReferenceColumn =>
    exact not_breaks_unknownReferenceColumn ho hn hvn (by simpa [Policy.mayBreak] using hmay) hb
  | unknownHelper =>
    exact not_breaks_unknownHelper ho hn hvo hvn (by simpa [Policy.mayBreak] using hmay) hb
  | ignoredCompositeKey => cases hr
  | unknownCompositeKeyColumn =>
    exact not_breaks_unknownCompositeKeyColumn ho hn hvo hvn
      (by simpa [Policy.mayBreak] using hmay) hb

/-- **What the permitted changes may break.**  They can be made; every issue that
    is an error is of a rule that the policy may break, a duplicate column is one
    that a table shares with a helper that it spreads, and there is no error if no
    change is refused. -/
theorem merge_permitted (policy : Policy) : ∃ merged,
    old.merge (policy.partition (old.changesTo new)).1 = .ok merged ∧
      (∀ i ∈ merged.validate, i.severity = .error → policy.mayBreak i.rule = true) ∧
      (∀ i ∈ merged.validate, i.rule = .duplicateColumn →
        ∃ t ∈ merged.tables, i ∈ collidingColumns merged t) ∧
      ((policy.partition (old.changesTo new)).2 = [] → hasErrors merged.validate = false) := by
  have hmerge := fun policy : Policy =>
    (congrArg old.merge (policy.partition_fst _)).trans (merge_changesTo policy.lets ho hn)
  refine ⟨_, hmerge policy, fun i hi hs => ?_, fun i hi hr => ?_, fun hrefused => ?_⟩
  · exact mayBreak_of_breaks ho hn hvo hvn hs ((exists_issue_iff _ _).1 ⟨i, hi, rfl⟩)
  · exact mem_collidingColumns_of_mem (fun g hg => nodup_helper_replayed ho hn hg)
      (fun t ht => nodup_table_replayed ho hn ht) hi hr
  · -- no change is refused, so the result is that of the policy that permits all
    let all : Policy := { allowBreaking := true, allowWarning := true }
    have hpermits : ∀ c, all.lets c = true := fun c => by
      rw [Policy.lets]
      cases c.impact <;> rfl
    have hsame : (policy.partition (old.changesTo new)).1 =
        (all.partition (old.changesTo new)).1 := by
      rw [Policy.partition_fst, Policy.partition_fst, List.filter_eq_self.2 fun c _ => hpermits c]
      rw [Policy.partition, List.partition_eq_filter_filter, List.filter_eq_nil_iff] at hrefused
      exact List.filter_eq_self.2 fun c hc => by simpa [Policy.lets] using hrefused c hc
    have heq : old.replayed policy.lets new = old.replayed all.lets new :=
      Except.ok.inj ((hmerge policy).symm.trans ((congrArg old.merge hsame).trans (hmerge all)))
    rw [heq]
    refine valid_iff.2 fun r hr hb => ?_
    have hmay := mayBreak_of_breaks ho hn hvo hvn hr hb
    cases r <;> exact absurd hmay (by decide)

end

/-- A journal: enums, helpers and tables that are replaced. -/
def journal : Schema := {
  outputDir := "db"
  enums := [⟨"Role", ["admin"]⟩]
  helpers := [
    ⟨"Graded", [.ofType "grade" .text]⟩,
    ⟨"Hidden", [.ofType "hidden" .uuid, .ofType "title" .text]⟩,
    ⟨"Owned", [.ofEnum "role" "Role", (Column.ofType "entry" .uuid).withReference "entries" "id"]⟩]
  tables := [
    { name := "Log"
      columns := [.ofType "id" .uuid, (Column.ofType "user" .uuid).withReference "users" "hidden"]
      helperReferences := ["Graded"]
      compositePrimaryKey := ["grade", "id"] },
    { name := "entries", columns := [.ofType "id" .uuid] },
    { name := "users"
      columns := [.ofType "id" .uuid, .ofType "note" .text]
      helperReferences := ["Hidden"] }] }

/-- What replaces the journal. -/
def journalAfter : Schema := {
  outputDir := "db"
  helpers := [⟨"Noted", [.ofType "note" .text]⟩]
  tables := [
    { name := "log", columns := [.ofType "id" .uuid] },
    { name := "users"
      columns := [.ofType "id" .uuid, .ofType "title" .text, (Column.ofType "email" .text).notNull]
      helperReferences := ["Noted"]
      compositePrimaryKey := ["id", "email"] },
    { name := "posts"
      columns := [(Column.ofType "author" .text).withReference "users" "email"] }] }

theorem journal_distinct : journal.Distinct ∧ journalAfter.Distinct := by
  constructor <;> decide +kernel

theorem journal_valid :
    hasErrors journal.validate = false ∧ hasErrors journalAfter.validate = false := by
  constructor <;> decide +kernel

/-- The journal can be replaced without warnings, and then breaks only rules of
    that policy. -/
theorem merge_permitted_journal :
    let policy : Policy := { allowBreaking := true, allowWarning := false }
    ∃ merged, journal.merge (policy.partition (journal.changesTo journalAfter)).1 = .ok merged ∧
      (∀ i ∈ merged.validate, i.severity = .error → policy.mayBreak i.rule = true) ∧
      (∀ i ∈ merged.validate, i.rule = .duplicateColumn →
        ∃ t ∈ merged.tables, i ∈ collidingColumns merged t) ∧
      ((policy.partition (journal.changesTo journalAfter)).2 = [] →
        hasErrors merged.validate = false) :=
  merge_permitted journal_distinct.1 journal_distinct.2 journal_valid.1 journal_valid.2 _

/-- The rules of an error that the result of a merge breaks. -/
def brokenRules (old new : Schema) (policy : Policy) : Except MergeError (List Rule) :=
  (old.merge (policy.partition (old.changesTo new)).1).map fun merged =>
    ((merged.validate.filter fun i => i.severity = .error).map Issue.rule).eraseDups

/-- **What a policy may break is broken** when the journal is replaced, by every
    policy that refuses some changes. -/
theorem brokenRules_journal :
    (journal.Distinct ∧ journalAfter.Distinct ∧ hasErrors journal.validate = false ∧
      hasErrors journalAfter.validate = false) ∧
    brokenRules journal journalAfter { allowBreaking := false, allowWarning := true } =
      .ok [.duplicateTableVariable, .unknownReferenceColumn, .unknownHelper,
        .unknownCompositeKeyColumn, .duplicateColumn] ∧
    brokenRules journal journalAfter { allowBreaking := true, allowWarning := false } =
      .ok [.unknownEnum, .unknownReferenceTable, .duplicateColumn, .unknownCompositeKeyColumn,
        .unknownReferenceColumn] ∧
    brokenRules journal journalAfter { allowBreaking := false, allowWarning := false } =
      .ok [.duplicateTableVariable, .duplicateColumn, .unknownReferenceColumn] := by
  refine ⟨⟨journal_distinct.1, journal_distinct.2, journal_valid.1, journal_valid.2⟩, ?_, ?_, ?_⟩
  · decide +kernel
  · decide +kernel
  · decide +kernel

end Schema

end SchemaLoom
