/-
  What a look for drift finds, and what it misses.

  Drift is told by fingerprints, and changes by comparing canonical forms.  The
  two agree but for one case: a text that spells a call has the fingerprint of
  the call, while a comparison tells them apart.

  * `Schema.SameEntities.of_spelledOut`: schemas that are the same with their
    calls spelled out are the same, if their columns are;
  * `Schema.driftOf_reordered`: the order of entities is no drift;
  * `Schema.drift_exact`: when there is no drift, and what then may differ.
-/
import SchemaLoom.Drift
import SchemaLoom.Proofs.Change.Agreement
import SchemaLoom.Proofs.Schema.Fingerprint

namespace SchemaLoom

/-! ## Defaults that spell no call -/

theorem DefaultValue.callText_injective : Function.Injective DefaultValue.callText := by
  intro f g h
  have h := congrArg String.toList h
  simp only [callText, String.toList_append] at h
  exact String.toList_injective (List.append_cancel_left (List.append_cancel_right h))

/-- The default is no text that spells a call. -/
def DefaultValue.Unambiguous (d : DefaultValue) : Prop := ∀ f, d ≠ .text (callText f)

theorem DefaultValue.eq_of_unambiguous {d e : DefaultValue} (hd : d.Unambiguous)
    (he : e.Unambiguous) (h : d.spelledOut = e.spelledOut) : d = e := by
  cases d with
  | call f =>
    cases e with
    | call g => rw [callText_injective (DefaultValue.text.inj h)]
    | text t => exact absurd h.symm (he f)
    | boolean b => cases h
    | integer i => cases h
  | text s =>
    cases e with
    | call g => exact absurd h (hd g)
    | text t => exact h
    | boolean b => cases h
    | integer i => cases h
  | boolean b =>
    cases e with
    | boolean b' => exact h
    | call g | text t | integer i => cases h
  | integer i =>
    cases e with
    | integer i' => exact h
    | call g | text t | boolean b => cases h

/-- The default of the column, if any, is no text that spells a call. -/
def Column.Unambiguous (c : Column) : Prop := ∀ d ∈ c.options.default, d.Unambiguous

/-- No default of the schema is a text that spells a call. -/
def Schema.Unambiguous (s : Schema) : Prop := ∀ c ∈ s.columns, c.Unambiguous

/-! ## What is the same spelled out -/

namespace Column

variable {c d : Column}

theorem name_of_spelledOut (h : c.spelledOut = d.spelledOut) : c.name = d.name :=
  (Column.mk.inj h).1

/-- Columns that are the same spelled out differ in their defaults only. -/
theorem eq_of_spelledOut (h : c.spelledOut = d.spelledOut)
    (hd : c.options.default = d.options.default) : c = d := by
  obtain ⟨name, typeName, o⟩ := c
  obtain ⟨name', typeName', o'⟩ := d
  obtain ⟨notNull, primaryKey, default, length, enumName, references⟩ := o
  simp only [spelledOut, ColumnOptions.spelledOut, Column.mk.injEq, ColumnOptions.mk.injEq] at h hd
  obtain ⟨rfl, rfl, rfl, rfl, -, rfl, rfl, rfl⟩ := h
  rw [hd]

theorem eq_of_unambiguous (hc : c.Unambiguous) (hd : d.Unambiguous)
    (h : c.spelledOut = d.spelledOut) : c = d := by
  refine eq_of_spelledOut h ?_
  have hdefault : c.options.default.map DefaultValue.spelledOut =
      d.options.default.map DefaultValue.spelledOut :=
    congrArg ColumnOptions.default (Column.mk.inj h).2.2
  cases hx : c.options.default with
  | none =>
    rw [hx] at hdefault
    exact (Option.map_eq_none_iff.1 hdefault.symm).symm
  | some x =>
    rw [hx] at hdefault
    obtain ⟨y, hy, hxy⟩ := Option.map_eq_some_iff.1 hdefault.symm
    rw [hy, DefaultValue.eq_of_unambiguous (hc x hx) (hd y hy) hxy.symm]

/-- Columns that agree are the same if they are the same spelled out. -/
theorem columns_eq_of_agree {cs ds : List Column} (h : cs.map spelledOut = ds.map spelledOut)
    (ha : AgreeBy Column.name Column.Agrees cs ds) : cs = ds :=
  eq_of_map_eq h fun c hc d hd hcd =>
    eq_of_spelledOut hcd (ha.agree c hc d hd (name_of_spelledOut hcd)).default

end Column

/-- Helpers that are the same spelled out are the same if their columns are. -/
theorem HelperDef.eq_of_spelledOut {g h : HelperDef} (hs : g.spelledOut = h.spelledOut)
    (hc : g.columns.map Column.spelledOut = h.columns.map Column.spelledOut →
      g.columns = h.columns) : g = h := by
  obtain ⟨name, columns⟩ := g
  obtain ⟨name', columns'⟩ := h
  simp only [spelledOut, HelperDef.mk.injEq] at hs hc ⊢
  exact ⟨hs.1, hc hs.2⟩

/-- Tables that are the same spelled out are the same if their columns are. -/
theorem TableDef.eq_of_spelledOut {t u : TableDef} (hs : t.spelledOut = u.spelledOut)
    (hc : t.columns.map Column.spelledOut = u.columns.map Column.spelledOut →
      t.columns = u.columns) : t = u := by
  obtain ⟨name, dbName, columns, references, key⟩ := t
  obtain ⟨name', dbName', columns', references', key'⟩ := u
  simp only [spelledOut, TableDef.mk.injEq] at hs hc ⊢
  exact ⟨hs.1, hs.2.1, hc hs.2.2.1, hs.2.2.2⟩

/-! ## Schemas -/

namespace Schema

variable {r s : Schema}

theorem SameEntities.symm (h : r.SameEntities s) : s.SameEntities r :=
  ⟨h.enums.symm, h.helpers.symm, h.tables.symm⟩

/-- Schemas that are the same spelled out are the same if their columns are. -/
theorem SameEntities.of_spelledOut (hr : r.DistinctNames) (hs : s.DistinctNames)
    (h : r.spelledOut.SameEntities s.spelledOut)
    (hhelpers : ∀ g ∈ r.helpers, ∀ h ∈ s.helpers, g.name = h.name →
      g.columns.map Column.spelledOut = h.columns.map Column.spelledOut → g.columns = h.columns)
    (htables : ∀ t ∈ r.tables, ∀ u ∈ s.tables, t.name = u.name →
      t.columns.map Column.spelledOut = u.columns.map Column.spelledOut → t.columns = u.columns) :
    r.SameEntities s where
  enums := h.enums
  helpers := by
    refine perm_of_map_perm hr.helpers hs.helpers h.helpers fun g hg k hk hgk => ?_
    exact HelperDef.eq_of_spelledOut hgk (hhelpers g hg k hk (HelperDef.mk.inj hgk).1)
  tables := by
    refine perm_of_map_perm hr.tables hs.tables h.tables fun t ht u hu htu => ?_
    exact TableDef.eq_of_spelledOut htu (htables t ht u hu (TableDef.mk.inj htu).1)

/-- Schemas that agree are the same if they are the same spelled out. -/
theorem SameEntities.of_agrees (hr : r.DistinctNames) (hs : s.DistinctNames)
    (h : r.spelledOut.SameEntities s.spelledOut) (ha : r.Agrees s) : r.SameEntities s := by
  refine .of_spelledOut hr hs h ?_ ?_
  · intro g hg k hk hname hc
    exact Column.columns_eq_of_agree hc (ha.helpers.agree g hg k hk hname)
  · intro t ht u hu hname hc
    exact Column.columns_eq_of_agree hc (ha.tables.agree t ht u hu hname).columns

/-- Schemas whose defaults spell no calls are the same if they are the same
    spelled out. -/
theorem SameEntities.of_unambiguous (hr : r.DistinctNames) (hs : s.DistinctNames)
    (h : r.spelledOut.SameEntities s.spelledOut) (hur : r.Unambiguous) (hus : s.Unambiguous) :
    r.SameEntities s := by
  refine .of_spelledOut hr hs h ?_ ?_
  · intro g hg k hk _ hc
    exact eq_of_map_eq hc fun c hc d hd => Column.eq_of_unambiguous
      (hur c (mem_columns_of_helper hg hc)) (hus d (mem_columns_of_helper hk hd))
  · intro t ht u hu _ hc
    exact eq_of_map_eq hc fun c hc d hd => Column.eq_of_unambiguous
      (hur c (mem_columns_of_table ht hc)) (hus d (mem_columns_of_table hu hd))

/-- Schemas that are the same, up to the order of entities, agree. -/
theorem SameEntities.agrees (hr : r.DistinctNames) (h : r.SameEntities s) : r.Agrees s where
  enums := .of_perm hr.enums h.enums fun e _ => .refl e.values
  helpers := .of_perm hr.helpers h.helpers fun k hk => HelperDef.agrees_self (hr.helperColumns k hk)
  tables := .of_perm hr.tables h.tables fun t ht => TableDef.agrees_self (hr.tableColumns t ht)

/-- A canonical form has the names of what it is the form of. -/
theorem DistinctNames.canonical (h : s.DistinctNames) : s.canonical.DistinctNames where
  enums := by
    rw [Schema.canonical, List.map_map]
    exact h.enums
  helpers := by
    rw [Schema.canonical, List.map_map]
    exact h.helpers
  tables := by
    rw [Schema.canonical, List.map_map]
    exact h.tables
  helperColumns := by
    refine List.forall_mem_map.2 fun k hk => ?_
    rw [HelperDef.Distinct, HelperDef.canonical, List.map_map,
      List.map_congr_left fun c _ => c.canonical_name]
    exact h.helperColumns k hk
  tableColumns := by
    refine List.forall_mem_map.2 fun t ht => ?_
    rw [TableDef.canonical, List.map_map, List.map_congr_left fun c _ => c.canonical_name]
    exact h.tableColumns t ht

/-! ## Drift -/

/-- **When there is no drift**: exactly if the canonical forms are the same, up
    to the order of entities, with calls in defaults spelled out.  Then a
    comparison finds no change exactly if the forms themselves are the same, and
    they are if no default is a text that spells a call. -/
theorem drift_exact {expected actual : Schema} (he : expected.DistinctNames)
    (ha : actual.DistinctNames) (hd : expected.NoCollision actual) :
    ((expected.driftOf actual).hasDrift = false ↔
      expected.canonical.spelledOut.SameEntities actual.canonical.spelledOut) ∧
    ((expected.driftOf actual).hasDrift = false →
      (actual.canonical.changesTo expected.canonical = [] ↔
        expected.canonical.SameEntities actual.canonical) ∧
      (expected.canonical.Unambiguous → actual.canonical.Unambiguous →
        expected.canonical.SameEntities actual.canonical)) := by
  have hdrift : (expected.driftOf actual).hasDrift = false ↔
      expected.canonical.spelledOut.SameEntities actual.canonical.spelledOut := by
    rw [← fingerprint_eq_iff hd he.enums he.helpers he.tables]
    exact bne_eq_false_iff_eq
  refine ⟨hdrift, fun h => ?_⟩
  have h := hdrift.1 h
  refine ⟨?_, fun hue hua => .of_unambiguous he.canonical ha.canonical h hue hua⟩
  rw [changesTo_eq_nil_of_names ha.canonical]
  constructor
  · exact fun hagrees => (SameEntities.of_agrees ha.canonical he.canonical h.symm hagrees).symm
  · exact fun hsame => hsame.symm.agrees ha.canonical

/-- Nothing is found to differ where the fingerprints are the same. -/
theorem driftOf_of_fingerprint (h : r.fingerprint = s.fingerprint) :
    (r.driftOf s).hasDrift = false ∧ (r.driftOf s).differences = [] := by
  have hdrift : (r.fingerprint != s.fingerprint) = false := bne_eq_false_iff_eq.2 h
  constructor
  · exact hdrift
  · show (if r.fingerprint != s.fingerprint then _ else []) = []
    rw [hdrift]
    rfl

/-- **The order of entities is no drift**, and neither is where they are
    generated, nor what the canonical form changes. -/
theorem driftOf_reordered (he : (s.enums.map EnumDef.name).Nodup)
    (hh : (s.helpers.map HelperDef.name).Nodup) (ht : (s.tables.map TableDef.name).Nodup)
    (h : s.SameEntities r) :
    (s.fingerprint = r.fingerprint ∧ (s.driftOf r).hasDrift = false ∧
      (s.driftOf r).differences = []) ∧
    (s.fingerprint = s.canonical.fingerprint ∧ (s.driftOf s.canonical).hasDrift = false ∧
      (s.driftOf s.canonical).differences = []) := by
  have horder : s.fingerprint = r.fingerprint := by
    rw [fingerprint, fingerprint, h.fingerprinted he hh ht]
  have hform : s.fingerprint = s.canonical.fingerprint := (fingerprint_canonical s).symm
  exact ⟨⟨horder, driftOf_of_fingerprint horder⟩, hform, driftOf_of_fingerprint hform⟩

/-- Tables and enums in another order, generated elsewhere. -/
theorem driftOf_reordered_blog :
    let posts : TableDef := { name := "posts", columns := [.ofType "id" .uuid] }
    let users : TableDef := { name := "Users", columns := [.ofType "id" .serial] }
    let s : Schema := {
      outputDir := "db"
      enums := [⟨"Role", ["Admin", "teamLead"]⟩, ⟨"Mood", ["ok"]⟩]
      tables := [posts, users] }
    let r : Schema := {
      outputDir := "other", overwrite := some true
      enums := [⟨"Mood", ["ok"]⟩, ⟨"Role", ["Admin", "teamLead"]⟩]
      tables := [users, posts] }
    ((s.enums.map EnumDef.name).Nodup ∧ (s.helpers.map HelperDef.name).Nodup ∧
      (s.tables.map TableDef.name).Nodup ∧ s.SameEntities r ∧ s ≠ r ∧ s ≠ s.canonical) ∧
    (s.fingerprint = r.fingerprint ∧ (s.driftOf r).hasDrift = false ∧
      (s.driftOf r).differences = []) ∧
    (s.fingerprint = s.canonical.fingerprint ∧ (s.driftOf s.canonical).hasDrift = false ∧
      (s.driftOf s.canonical).differences = []) := by
  intro posts users s r
  have he : (s.enums.map EnumDef.name).Nodup := by decide
  have hh : (s.helpers.map HelperDef.name).Nodup := List.nodup_nil
  have ht : (s.tables.map TableDef.name).Nodup := by decide
  have hsame : s.SameEntities r := ⟨.swap _ _ _, .nil, .swap _ _ _⟩
  have hother : s ≠ r := by
    intro h
    exact absurd (congrArg Schema.outputDir h) (by decide)
  have hform : s ≠ s.canonical := by decide +kernel
  exact ⟨⟨he, hh, ht, hsame, hother, hform⟩, driftOf_reordered he hh ht hsame⟩

/-- A schema with a column of texts that has this default. -/
def notesSchema (default : DefaultValue) : Schema where
  outputDir := "db"
  tables := [{ name := "notes", columns := [(Column.ofType "made" .text).withDefault default] }]

/-- No drift is found between a call and the text that spells it, but a
    change is. -/
theorem drift_exact_notes :
    let expected := notesSchema (.call "now")
    let actual := notesSchema (.text "sql.now()")
    (expected.DistinctNames ∧ actual.DistinctNames ∧ expected.NoCollision actual) ∧
      (expected.driftOf actual).hasDrift = false ∧
      actual.canonical.changesTo expected.canonical ≠ [] ∧
      ¬expected.canonical.SameEntities actual.canonical := by
  intro expected actual
  have hnames : ∀ d, (notesSchema d).DistinctNames := fun d =>
    ⟨List.nodup_nil, List.nodup_nil, List.nodup_singleton _, nofun, by simp [notesSchema]⟩
  have hsame : expected.serialized = actual.serialized := by
    rw [serialized_eq_iff]
    decide +kernel
  have hd : expected.NoCollision actual := fun _ => hsame
  obtain ⟨hdrift, hchanges⟩ := drift_exact (hnames _) (hnames _) hd
  have hnone : (expected.driftOf actual).hasDrift = false := hdrift.2 ⟨.nil, .nil, .refl _⟩
  have hsome : actual.canonical.changesTo expected.canonical ≠ [] := by decide +kernel
  exact ⟨⟨hnames _, hnames _, hd⟩, hnone, hsome, fun h => hsome ((hchanges hnone).1.2 h)⟩

end Schema

end SchemaLoom
