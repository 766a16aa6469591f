/-
  What the permitted changes leave.

  A policy lets changes through by their impact alone: additions are made apart
  from columns that must not be null, and what only the old schema has goes or
  stays according to its kind.

  * `Schema.mem_namesOf_replayed`, `Schema.helperColumn_replayed`: the entities
    and the columns of helpers that are left;
  * `Schema.mem_columns_replayed`, `Column.kind_replayed`,
    `Column.references_replayed`: where a column comes from, with its parts;
  * `Schema.columnNames_of_pair_new`, `Schema.columnNames_of_pair_old`: the
    columns of a table that both sides have.
-/
import SchemaLoom.Proofs.Change.Canonical
import SchemaLoom.Proofs.Change.Order

namespace SchemaLoom

namespace Policy

/-- Whether a policy permits all changes. -/
def permitsAll (policy : Policy) : Bool := policy.allowBreaking && policy.allowWarning

theorem permitsAll_of_warning {policy : Policy} (h : policy.allowWarning = false) :
    policy.permitsAll = false := by
  rw [permitsAll, h, Bool.and_false]

theorem permitsAll_of_breaking {policy : Policy} (h : policy.allowBreaking = false) :
    policy.permitsAll = false := by
  rw [permitsAll, h, Bool.false_and]

theorem permitsAll_eq_true {policy : Policy} :
    policy.permitsAll = true ↔ policy.allowBreaking = true ∧ policy.allowWarning = true :=
  Bool.and_eq_true_iff

/-- Whether the entities of a kind can be removed. -/
def removes (policy : Policy) : EntityKind → Bool
  | .helper => policy.allowWarning
  | _ => policy.allowBreaking

end Policy

/-! ## Names -/

namespace ListReplay

variable {α : Type} (M : ListReplay α) {p : Change → Bool} {b : Bool} {old new : List α}
  (ho : (old.map M.name).Nodup) (hn : (new.map M.name).Nodup) (hadd : ∀ x, p (M.added x) = true)
  (hrem : ∀ x, p (M.removed x) = b)
include ho hn hadd hrem

/-- The names that are left, when additions are let through and removals are or
    are not. -/
theorem mem_names_members {s : String} : s ∈ (M.members p old new old).map M.name ↔
    s ∈ new.map M.name ∨ (b = false ∧ s ∈ old.map M.name) := by
  rw [List.mem_map]
  simp only [M.mem_members_iff p ho hn (f := fun _ => true) hadd (g := fun _ => b) hrem]
  constructor
  · rintro ⟨a, ⟨ha, hkept⟩ | ha, rfl⟩
    · exact hkept.imp id fun hb => ⟨hb, List.mem_map_of_mem ha⟩
    · exact .inl (List.mem_map_of_mem ha.1)
  · rintro (hs | ⟨hb, hs⟩)
    · by_cases hold : s ∈ old.map M.name
      · obtain ⟨o, ho, rfl⟩ := List.mem_map.1 hold
        exact ⟨o, .inl ⟨ho, .inl hs⟩, rfl⟩
      · obtain ⟨n, hn, rfl⟩ := List.mem_map.1 hs
        exact ⟨n, .inr ⟨hn, hold, trivial⟩, rfl⟩
    · obtain ⟨o, ho, rfl⟩ := List.mem_map.1 hs
      exact ⟨o, .inl ⟨ho, .inr hb⟩, rfl⟩

theorem mem_names_replayed (result : α × α → α)
    (hres : ∀ q ∈ paired M.name old new, M.name (result q) = M.name q.2) {s : String} :
    s ∈ (M.replayed p result old new).map M.name ↔
      s ∈ new.map M.name ∨ (b = false ∧ s ∈ old.map M.name) := by
  rw [M.map_name_replayed p result hres]
  exact M.mem_names_members ho hn hadd hrem

end ListReplay

section
variable (policy : Policy) {old new : Schema} (ho : old.Distinct) (hn : new.Distinct)
include ho hn

theorem Schema.mem_namesOf_replayed (kind : EntityKind) {s : String} :
    s ∈ (old.replayed policy.lets new).namesOf kind ↔
      s ∈ new.namesOf kind ∨ (policy.removes kind = false ∧ s ∈ old.namesOf kind) := by
  cases kind with
  | enum =>
    exact enumReplay.mem_names_replayed (p := policy.lets) (b := policy.allowBreaking)
      ho.enumNames hn.enumNames (fun _ => rfl) (fun _ => rfl)
      (fun q => q.1.replayed policy.lets q.2) fun q hq => ((mem_paired ho.enumNames).1 hq).2.2
  | helper =>
    exact helperReplay.mem_names_replayed (p := policy.lets) (b := policy.allowWarning)
      ho.helperNames hn.helperNames (fun _ => rfl) (fun _ => rfl)
      (fun q => q.1.replayed policy.lets q.2) fun q hq => ((mem_paired ho.helperNames).1 hq).2.2
  | table =>
    exact tableReplay.mem_names_replayed (p := policy.lets) (b := policy.allowBreaking)
      ho.tableNames hn.tableNames (fun _ => rfl) (fun _ => rfl)
      (fun q => q.1.replayed policy.lets q.2) fun q hq => ((mem_paired ho.tableNames).1 hq).2.2

end

/-! ## Columns -/

namespace Column

variable (policy : Policy) {kind : EntityKind} {entity : String} {o n : Column}

/-- The types of the permitted changes between two columns. -/
theorem mem_types (kind : EntityKind) (entity : String) {t : ChangeType} :
    t ∈ ((columnChanges kind entity o n).filter policy.lets).map Change.type ↔
      t ∈ (columnModifications (entity ++ "." ++ n.name) o n).map Prod.fst ∧
        policy.permits t.impact = true := by
  rw [columnChanges, List.filter_map, List.map_map, List.mem_map, List.mem_map]
  constructor
  · rintro ⟨m, hm, rfl⟩
    obtain ⟨hm, hp⟩ := List.mem_filter.1 hm
    exact ⟨⟨m, hm, rfl⟩, hp⟩
  · rintro ⟨⟨m, hm, rfl⟩, hp⟩
    exact ⟨m, List.mem_filter.2 ⟨hm, hp⟩, rfl⟩

/-- What a column refers to after the permitted changes. -/
theorem references_replayed : (replayed policy.lets kind entity (o, n)).options.references =
    if policy.allowWarning then n.options.references else o.options.references := by
  have hmem : .columnReferenceChanged ∈
      (columnModifications (entity ++ "." ++ n.name) o n).map Prod.fst ↔
        o.options.references ≠ n.options.references := by
    rw [columnModifications_eq]
    simp [present, columnDifferences]
  simp only [replayed, taking, mem_types, hmem]
  by_cases he : o.options.references = n.options.references
  · simp [he]
  · simp only [ne_eq, he, not_false_iff, true_and]
    rfl

/-- The enum that a kind names. -/
def enumOf : ColumnKind → Option String
  | .enumeration name => some name
  | .scalar _ _ => none

theorem enumName_of_kind {c : Column} {k : ColumnKind} (h : c.kind = .ok k) :
    c.options.enumName = enumOf k := by
  rw [kind] at h
  split at h
  · cases h
  · split at h
    next he =>
      cases h
      exact he
    · cases h
    next he _ =>
      split at h
      · cases h
      · cases h
      · cases h
        exact he

/-- The kind of a column and its enum after the permitted changes. -/
theorem kind_replayed (kind : EntityKind) (entity : String) (he : o.name = n.name)
    {a b : ColumnKind} (ha : o.kind = .ok a) (hb : n.kind = .ok b) :
    (replayed policy.lets kind entity (o, n)).kind =
        (if policy.allowBreaking then n.kind else o.kind) ∧
      (replayed policy.lets kind entity (o, n)).options.enumName =
        (if policy.allowBreaking then n.options.enumName else o.options.enumName) := by
  have hmem : .columnTypeChanged ∈
      (columnModifications (entity ++ "." ++ n.name) o n).map Prod.fst ↔
        typeChanged o n = true := by
    rw [columnModifications_eq]
    simp [present, columnDifferences]
  have htypes := (mem_types policy kind entity).trans (and_congr_left fun _ => hmem)
  rw [replayed]
  generalize ((columnChanges kind entity o n).filter policy.lets).map Change.type = types at htypes
  by_cases ht : .columnTypeChanged ∈ types
  · have hb' : policy.allowBreaking = true := (htypes.1 ht).2
    rw [if_pos hb', if_pos hb']
    have henum : (taking types n o).options.enumName = n.options.enumName := if_pos ht
    exact ⟨kind_congr he (if_pos ht) henum (if_pos ht), henum⟩
  · have henum : (taking types n o).options.enumName = o.options.enumName := if_neg ht
    have hkind : (taking types n o).kind = o.kind :=
      kind_congr rfl (if_neg ht) henum (if_neg ht)
    rw [hkind, henum]
    by_cases hb' : policy.allowBreaking = true
    · have hsame : o.SameType n := typeChanged_eq_false.1
        (Bool.eq_false_iff.2 fun hc => ht (htypes.2 ⟨hc, hb'⟩))
      rw [SameType, ha, hb] at hsame
      obtain rfl : a = b := hsame
      rw [if_pos hb', if_pos hb', ha, hb, enumName_of_kind ha, enumName_of_kind hb]
      exact ⟨rfl, rfl⟩
    · rw [if_neg hb', if_neg hb']
      exact ⟨rfl, rfl⟩

/-- **Where a column of an entity comes from**: from one of the sides, or from
    both. -/
theorem mem_replayed {added removed : ChangeType}
    {h : added ≠ removed ∧ added ∉ columnTypes ∧ removed ∉ columnTypes} {old new : List Column}
    (ho : (old.map name).Nodup) (hn : (new.map name).Nodup) {f : Column → Bool} {b : Bool}
    (hf : ∀ x, policy.lets (columnAddition kind entity added x) = f x.1)
    (hb : policy.permits removed.impact = b) {c : Column} :
    c ∈ (columnReplay kind entity added removed h).replayed policy.lets
        (replayed policy.lets kind entity) old new ↔
      (c ∈ old ∧ c.name ∉ new.map name ∧ b = false) ∨
      (c ∈ new ∧ c.name ∉ old.map name ∧ f c = true) ∨
      ∃ q ∈ paired name old new, replayed policy.lets kind entity q = c :=
  (columnReplay kind entity added removed h).mem_replayed policy.lets ho hn hf
    (g := fun _ => b) (fun _ => hb) (replayed policy.lets kind entity)

/-- When a column that is added to a table is let through. -/
theorem lets_tableAddition (x : Column × Nat) :
    policy.lets (columnAddition .table entity .tableColumnAdded x) =
      (policy.allowWarning || !x.1.options.notNull) := by
  rw [columnAddition]
  cases hnull : x.1.options.notNull with
  | true =>
    rw [if_pos ⟨rfl, rfl⟩]
    exact (Bool.or_false _).symm
  | false =>
    rw [if_neg fun h => Bool.noConfusion h.2]
    exact (Bool.or_true _).symm

/-- All that a column names can stand unquoted. -/
theorem checkIdentifiers_eq_ok {c : Column} : c.checkIdentifiers = .ok () ↔
    Text.isIdentifier c.name = true ∧
      (∀ e, c.options.enumName = some e → Text.isBindingName e = true) ∧
      ∀ r, c.options.references = some r →
        Text.isBindingName (tableVariable r.table) = true ∧ Text.isIdentifier r.column = true := by
  rw [checkIdentifiers_eq_ok_iff, unquotedNames]
  cases c.options.enumName <;> cases c.options.references <;> simp

end Column

/-! ## Entities -/

/-- The composite key that counts afterwards has columns of the new one, or is the
    old one if breaking changes are refused. -/
theorem TableDef.compositeKey_replayed (policy : Policy) {o n : TableDef} {key : List String}
    (hk : (o.replayed policy.lets n).compositeKey = some key) {c : String} (hc : c ∈ key) :
    if policy.allowBreaking then ∃ k, n.compositeKey = some k ∧ c ∈ k
    else o.compositeKey = some key := by
  have hlets : ∀ d ∈ compositeKeyChange o n, policy.lets d = policy.allowBreaking := by
    intro d hd
    rw [compositeKeyChange] at hd
    split at hd
    · cases hd
    · obtain rfl := List.mem_singleton.1 hd
      rfl
  have hnew : c ∈ n.compositeKey.getD [] → ∃ k, n.compositeKey = some k ∧ c ∈ k := by
    cases n.compositeKey with
    | none => exact fun h => absurd h List.not_mem_nil
    | some k => exact fun h => ⟨k, rfl, h⟩
  have hkept : keyAfter policy.lets o n o = o.compositePrimaryKey → o.compositeKey = some key := by
    intro h
    rw [← hk, compositeKey, compositeKey, replayed, h]
  split
  next hb =>
    rw [hb] at hlets
    have hall : (compositeKeyChange o n).filter policy.lets = compositeKeyChange o n :=
      List.filter_eq_self.2 hlets
    by_cases hnil : compositeKeyChange o n = []
    · have hold := hkept (if_pos (hall.trans hnil))
      refine hnew ((compositeKeyChange_eq_nil.1 hnil c).1 ?_)
      rw [hold]
      exact hc
    · have hafter : keyAfter policy.lets o n o = n.compositeKey.getD [] :=
        if_neg (hall.symm ▸ hnil)
      rw [compositeKey, replayed, hafter] at hk
      split at hk
      · obtain rfl : n.compositeKey.getD [] = key := Option.some.inj hk
        exact hnew hc
      · cases hk
  next hb =>
    rw [Bool.eq_false_iff.2 hb] at hlets
    exact hkept (if_pos (List.filter_eq_nil_iff.2 fun d hd => by simp [hlets d hd]))

namespace Schema

/-- Whether a helper of a schema has a column of a name. -/
def HelperColumn (s : Schema) (helper column : String) : Prop :=
  ∃ g ∈ s.helpers, g.name = helper ∧ column ∈ g.columns.map Column.name

/-- The columns of a table: its own, and those of its helpers. -/
theorem mem_columnNames {s : Schema} (hs : (s.namesOf .helper).Nodup) {t : TableDef} {c : String} :
    c ∈ s.columnNames t ↔
      c ∈ t.columns.map Column.name ∨ ∃ h ∈ t.helperReferences, s.HelperColumn h c := by
  rw [columnNames, List.mem_append, List.mem_flatMap]
  refine or_congr_right ?_
  constructor
  · rintro ⟨g, hg, hc⟩
    obtain ⟨h, hh, hfound⟩ := List.mem_filterMap.1 hg
    obtain ⟨hg, hname⟩ := (find?_name_eq_some hs).1 hfound
    exact ⟨h, hh, g, hg, hname, hc⟩
  · rintro ⟨h, hh, g, hg, hname, hc⟩
    exact ⟨g, List.mem_filterMap.2 ⟨h, hh, (find?_name_eq_some hs).2 ⟨hg, hname⟩⟩, hc⟩

end Schema

section
variable (policy : Policy) {old new : Schema} (ho : old.Distinct) (hn : new.Distinct)
include ho hn

namespace Schema

theorem nodup_namesOf_replayed (kind : EntityKind) :
    ((old.replayed policy.lets new).namesOf kind).Nodup := by
  cases kind with
  | enum =>
    exact enumReplay.nodup_replayed policy.lets (fun q => q.1.replayed policy.lets q.2)
      (fun q hq => ((mem_paired ho.enumNames).1 hq).2.2) ho.enumNames hn.enumNames
  | helper =>
    exact helperReplay.nodup_replayed policy.lets (fun q => q.1.replayed policy.lets q.2)
      (fun q hq => ((mem_paired ho.helperNames).1 hq).2.2) ho.helperNames hn.helperNames
  | table =>
    exact tableReplay.nodup_replayed policy.lets (fun q => q.1.replayed policy.lets q.2)
      (fun q hq => ((mem_paired ho.tableNames).1 hq).2.2) ho.tableNames hn.tableNames

/-- Where a helper comes from. -/
theorem mem_helpers_replayed {g : HelperDef} : g ∈ (old.replayed policy.lets new).helpers ↔
    (g ∈ old.helpers ∧ g.name ∉ new.namesOf .helper ∧ policy.allowWarning = false) ∨
    (g ∈ new.helpers ∧ g.name ∉ old.namesOf .helper) ∨
    ∃ q ∈ paired HelperDef.name old.helpers new.helpers, q.1.replayed policy.lets q.2 = g := by
  refine (helperReplay.mem_replayed policy.lets ho.helperNames hn.helperNames
    (f := fun _ => true) (fun _ => rfl) (g := fun _ => policy.allowWarning) (fun _ => rfl)
    fun q => q.1.replayed policy.lets q.2).trans ?_
  exact or_congr_right (or_congr_left (and_congr_right fun _ => and_iff_left rfl))

/-- Where a table comes from. -/
theorem mem_tables_replayed {t : TableDef} : t ∈ (old.replayed policy.lets new).tables ↔
    (t ∈ old.tables ∧ t.name ∉ new.namesOf .table ∧ policy.allowBreaking = false) ∨
    (t ∈ new.tables ∧ t.name ∉ old.namesOf .table) ∨
    ∃ q ∈ paired TableDef.name old.tables new.tables, q.1.replayed policy.lets q.2 = t := by
  refine (tableReplay.mem_replayed policy.lets ho.tableNames hn.tableNames
    (f := fun _ => true) (fun _ => rfl) (g := fun _ => policy.allowBreaking) (fun _ => rfl)
    fun q => q.1.replayed policy.lets q.2).trans ?_
  exact or_congr_right (or_congr_left (and_congr_right fun _ => and_iff_left rfl))

/-- Where a column comes from. -/
theorem mem_columns_replayed {c : Column} (hc : c ∈ (old.replayed policy.lets new).columns) :
    c ∈ new.columns ∨ (policy.permitsAll = false ∧ c ∈ old.columns) ∨
      ∃ o ∈ old.columns, ∃ n ∈ new.columns, ∃ kind entity, o.name = n.name ∧
        Column.replayed policy.lets kind entity (o, n) = c := by
  rcases List.mem_append.1 hc with hc | hc
  · obtain ⟨g, hg, hc⟩ := List.mem_flatMap.1 hc
    rcases (mem_helpers_replayed policy ho hn).1 hg with ⟨hg, -, hw⟩ | ⟨hg, -⟩ | ⟨q, hq, rfl⟩
    · exact .inr (.inl ⟨Policy.permitsAll_of_warning hw, mem_columns_of_helper hg hc⟩)
    · exact .inl (mem_columns_of_helper hg hc)
    · obtain ⟨hqo, hqn, -⟩ := (mem_paired ho.helperNames).1 hq
      rcases (Column.mem_replayed policy (ho.helpers _ hqo) (hn.helpers _ hqn)
        (f := fun _ => true) (fun _ => rfl) rfl).1 hc with ⟨hc, -, hw⟩ | ⟨hc, -⟩ | ⟨r, hr, rfl⟩
      · exact .inr (.inl ⟨Policy.permitsAll_of_warning hw, mem_columns_of_helper hqo hc⟩)
      · exact .inl (mem_columns_of_helper hqn hc)
      · obtain ⟨hro, hrn, hname⟩ := (mem_paired (ho.helpers _ hqo)).1 hr
        exact .inr (.inr ⟨r.1, mem_columns_of_helper hqo hro, r.2, mem_columns_of_helper hqn hrn,
          .helper, q.2.name, hname, rfl⟩)
  · obtain ⟨t, ht, hc⟩ := List.mem_flatMap.1 hc
    rcases (mem_tables_replayed policy ho hn).1 ht with ⟨ht, -, hb⟩ | ⟨ht, -⟩ | ⟨q, hq, rfl⟩
    · exact .inr (.inl ⟨Policy.permitsAll_of_breaking hb, mem_columns_of_table ht hc⟩)
    · exact .inl (mem_columns_of_table ht hc)
    · obtain ⟨hqo, hqn, -⟩ := (mem_paired ho.tableNames).1 hq
      have hdistinct := (ho.tables _ hqo).columns
      rcases (Column.mem_replayed policy hdistinct (hn.tables _ hqn).columns
        (f := fun c => policy.allowWarning || !c.options.notNull)
        (Column.lets_tableAddition policy) rfl).1 hc with ⟨hc, -, hb⟩ | ⟨hc, -⟩ | ⟨r, hr, rfl⟩
      · exact .inr (.inl ⟨Policy.permitsAll_of_breaking hb, mem_columns_of_table hqo hc⟩)
      · exact .inl (mem_columns_of_table hqn hc)
      · obtain ⟨hro, hrn, hname⟩ := (mem_paired hdistinct).1 hr
        exact .inr (.inr ⟨r.1, mem_columns_of_table hqo hro, r.2, mem_columns_of_table hqn hrn,
          .table, q.2.name, hname, rfl⟩)

/-- The columns of the helpers that are left. -/
theorem helperColumn_replayed {h c : String} :
    (old.replayed policy.lets new).HelperColumn h c ↔
      new.HelperColumn h c ∨ (policy.allowWarning = false ∧ old.HelperColumn h c) := by
  have hpair : ∀ q ∈ paired HelperDef.name old.helpers new.helpers,
      (c ∈ (q.1.replayed policy.lets q.2).columns.map Column.name ↔
        c ∈ q.2.columns.map Column.name ∨
          (policy.allowWarning = false ∧ c ∈ q.1.columns.map Column.name)) := by
    intro q hq
    obtain ⟨hqo, hqn, -⟩ := (mem_paired ho.helperNames).1 hq
    have hdistinct : (q.1.columns.map Column.name).Nodup := ho.helpers _ hqo
    have hmem := (helperColumnReplay q.2.name).mem_names_members (p := policy.lets)
      (b := policy.allowWarning) hdistinct (hn.helpers _ hqn) (fun _ => rfl) (fun _ => rfl) (s := c)
    have hnames : (q.1.replayed policy.lets q.2).columns.map Column.name = _ :=
      columnReplay_names policy.lets hdistinct
    rw [hnames]
    exact hmem
  constructor
  · rintro ⟨g, hg, rfl, hc⟩
    rcases (mem_helpers_replayed policy ho hn).1 hg with ⟨hg, -, hw⟩ | ⟨hg, -⟩ | ⟨q, hq, rfl⟩
    · exact .inr ⟨hw, g, hg, rfl, hc⟩
    · exact .inl ⟨g, hg, rfl, hc⟩
    · obtain ⟨hqo, hqn, hname⟩ := (mem_paired ho.helperNames).1 hq
      exact ((hpair q hq).1 hc).imp (fun hc => ⟨q.2, hqn, hname.symm, hc⟩)
        fun hc => ⟨hc.1, q.1, hqo, rfl, hc.2⟩
  · rintro (⟨g, hg, rfl, hc⟩ | ⟨hw, g, hg, rfl, hc⟩)
    · by_cases hold : g.name ∈ old.namesOf .helper
      · obtain ⟨o, hmem, hname⟩ := List.mem_map.1 hold
        have hq : (o, g) ∈ paired HelperDef.name old.helpers new.helpers :=
          (mem_paired ho.helperNames).2 ⟨hmem, hg, hname⟩
        exact ⟨_, (mem_helpers_replayed policy ho hn).2 (.inr (.inr ⟨_, hq, rfl⟩)), hname,
          (hpair _ hq).2 (.inl hc)⟩
      · exact ⟨g, (mem_helpers_replayed policy ho hn).2 (.inr (.inl ⟨hg, hold⟩)), rfl, hc⟩
    · by_cases hnew : g.name ∈ new.namesOf .helper
      · obtain ⟨n, hmem, hname⟩ := List.mem_map.1 hnew
        have hq : (g, n) ∈ paired HelperDef.name old.helpers new.helpers :=
          (mem_paired ho.helperNames).2 ⟨hg, hmem, hname.symm⟩
        exact ⟨_, (mem_helpers_replayed policy ho hn).2 (.inr (.inr ⟨_, hq, rfl⟩)), rfl,
          (hpair _ hq).2 (.inr ⟨hw, hc⟩)⟩
      · exact ⟨g, (mem_helpers_replayed policy ho hn).2 (.inl ⟨hg, hnew, hw⟩), rfl, hc⟩

/-- The helpers that a table spreads afterwards. -/
theorem mem_references_replayed {q : TableDef × TableDef}
    (hq : q ∈ paired TableDef.name old.tables new.tables) {h : String} :
    h ∈ (q.1.replayed policy.lets q.2).helperReferences ↔ h ∈ q.2.helperReferences ∨
      (policy.allowWarning = false ∧ h ∈ q.1.helperReferences) := by
  obtain ⟨hqo, hqn, -⟩ := (mem_paired ho.tableNames).1 hq
  have hmap : ∀ names : List String, names.map (referenceReplay q.2.name).name = names :=
    List.map_id
  have hold : (q.1.helperReferences.map (referenceReplay q.2.name).name).Nodup := by
    rw [hmap]
    exact (ho.tables _ hqo).helperReferences
  have hnew : (q.2.helperReferences.map (referenceReplay q.2.name).name).Nodup := by
    rw [hmap]
    exact (hn.tables _ hqn).helperReferences
  have hmem := (referenceReplay q.2.name).mem_names_members (p := policy.lets)
    (b := policy.allowWarning) hold hnew (fun _ => rfl) (fun _ => rfl) (s := h)
  rw [hmap, hmap, hmap] at hmem
  exact hmem

/-- The columns that a table has of its own afterwards. -/
theorem mem_ownNames_replayed {q : TableDef × TableDef}
    (hq : q ∈ paired TableDef.name old.tables new.tables) {c : String} :
    c ∈ (q.1.replayed policy.lets q.2).columns.map Column.name ↔
      (c ∈ q.1.columns.map Column.name ∧
        (c ∈ q.2.columns.map Column.name ∨ policy.allowBreaking = false)) ∨
      ∃ n ∈ q.2.columns, n.name = c ∧ c ∉ q.1.columns.map Column.name ∧
        (policy.allowWarning || !n.options.notNull) = true := by
  obtain ⟨hqo, hqn, -⟩ := (mem_paired ho.tableNames).1 hq
  have hdistinct := (ho.tables _ hqo).columns
  have hnames : (q.1.replayed policy.lets q.2).columns.map Column.name = _ :=
    columnReplay_names policy.lets hdistinct
  rw [hnames, List.mem_map]
  have hmem : ∀ a, a ∈ (tableColumnReplay q.2.name).members policy.lets q.1.columns q.2.columns
      q.1.columns ↔ _ := fun a =>
    (tableColumnReplay q.2.name).mem_members_iff policy.lets hdistinct
      (hn.tables _ hqn).columns (f := fun c => policy.allowWarning || !c.options.notNull)
      (Column.lets_tableAddition policy) (g := fun _ => policy.allowBreaking) (fun _ => rfl)
  constructor
  · rintro ⟨a, ha, rfl⟩
    rcases (hmem a).1 ha with ⟨ha, hkept⟩ | ⟨ha, hname, hlet⟩
    · exact .inl ⟨List.mem_map_of_mem ha, hkept⟩
    · exact .inr ⟨a, ha, rfl, hname, hlet⟩
  · rintro (⟨hc, hkept⟩ | ⟨n, hmemn, rfl, hname, hlet⟩)
    · obtain ⟨o, hmemo, rfl⟩ := List.mem_map.1 hc
      exact ⟨o, (hmem o).2 (.inl ⟨hmemo, hkept⟩), rfl⟩
    · exact ⟨n, (hmem n).2 (.inr ⟨hmemn, hname, hlet⟩), rfl⟩

/-! ## The columns of a table -/

/-- The columns of a new table are there. -/
theorem columnNames_of_new (t : TableDef) :
    new.columnNames t ⊆ (old.replayed policy.lets new).columnNames t := by
  intro c hc
  refine (mem_columnNames (nodup_namesOf_replayed policy ho hn .helper)).2 ?_
  refine ((mem_columnNames hn.helperNames).1 hc).imp id fun ⟨h, hh, hc⟩ => ⟨h, hh, ?_⟩
  exact (helperColumn_replayed policy ho hn).2 (.inl hc)

/-- So are those of a table that stays, if no helper is removed. -/
theorem columnNames_of_old (hw : policy.allowWarning = false) (t : TableDef) :
    old.columnNames t ⊆ (old.replayed policy.lets new).columnNames t := by
  intro c hc
  refine (mem_columnNames (nodup_namesOf_replayed policy ho hn .helper)).2 ?_
  refine ((mem_columnNames ho.helperNames).1 hc).imp id fun ⟨h, hh, hc⟩ => ⟨h, hh, ?_⟩
  exact (helperColumn_replayed policy ho hn).2 (.inr ⟨hw, hc⟩)

variable {q : TableDef × TableDef} (hq : q ∈ paired TableDef.name old.tables new.tables)
include hq

/-- A table gets all the columns of its new form if additions that ask for care
    are permitted. -/
theorem columnNames_of_pair_new (hw : policy.allowWarning = true) :
    new.columnNames q.2 ⊆
      (old.replayed policy.lets new).columnNames (q.1.replayed policy.lets q.2) := by
  intro c hc
  refine (mem_columnNames (nodup_namesOf_replayed policy ho hn .helper)).2 ?_
  rcases (mem_columnNames hn.helperNames).1 hc with hc | ⟨h, hh, hc⟩
  · refine .inl ((mem_ownNames_replayed policy ho hn hq).2 ?_)
    by_cases hold : c ∈ q.1.columns.map Column.name
    · exact .inl ⟨hold, .inl hc⟩
    · obtain ⟨n, hmem, rfl⟩ := List.mem_map.1 hc
      exact .inr ⟨n, hmem, rfl, hold, by rw [hw, Bool.true_or]⟩
  · exact .inr ⟨h, (mem_references_replayed policy ho hn hq).2 (.inl hh),
      (helperColumn_replayed policy ho hn).2 (.inl hc)⟩

/-- It keeps all the columns of its old form if only safe changes are permitted. -/
theorem columnNames_of_pair_old (hb : policy.allowBreaking = false)
    (hw : policy.allowWarning = false) : old.columnNames q.1 ⊆
      (old.replayed policy.lets new).columnNames (q.1.replayed policy.lets q.2) := by
  intro c hc
  refine (mem_columnNames (nodup_namesOf_replayed policy ho hn .helper)).2 ?_
  rcases (mem_columnNames ho.helperNames).1 hc with hc | ⟨h, hh, hc⟩
  · exact .inl ((mem_ownNames_replayed policy ho hn hq).2 (.inl ⟨hc, .inr hb⟩))
  · exact .inr ⟨h, (mem_references_replayed policy ho hn hq).2 (.inr ⟨hw, hh⟩),
      (helperColumn_replayed policy ho hn).2 (.inr ⟨hw, hc⟩)⟩

end Schema

end

end SchemaLoom
