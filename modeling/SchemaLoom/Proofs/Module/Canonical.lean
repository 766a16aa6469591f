/-
  Generators do not see the difference between an entity and its canonical form.

  Each part of a canonical form is written as the part it comes from: a value in
  the PascalCase of its words, a reference by the variable of the table, a length
  where the type supports one, a database name if it is not derived.

  * `Column.encode_canonical`;
  * `EnumDef.generate_canonical`, `HelperDef.generate_canonical`,
    `TableDef.generate_canonical`: the same is written, or nothing of either;
  * `Schema.canonical_invisible`, `Schema.generateBatch_canonical`: so it is for a
    whole schema.
-/
import SchemaLoom.Proofs.Module.Batch
import SchemaLoom.Proofs.Module.Generation
import SchemaLoom.Proofs.Schema.Canonical

namespace SchemaLoom

/-! ## Columns -/

theorem defaultText_canonicalDefault (d : DefaultValue) :
    defaultText true (Column.canonicalDefault d) = defaultText true d := by
  cases d with
  | text s =>
    simp only [Column.canonicalDefault, defaultText, if_pos, Text.pascalCase_canonicalValue]
  | boolean b => rfl
  | integer i => rfl
  | call f => rfl

namespace Column

/-- The length that a column has in canonical form. -/
def canonicalLength (c : Column) : Option UInt32 :=
  if c.isEnum then none
  else
    match c.typeName.bind ColumnType.ofName? with
    | some type => if type.supportsLength then c.options.length else none
    | none => c.options.length

/-- The canonical form, part by part. -/
theorem canonical_eq (c : Column) : c.canonical = {
    name := c.name
    typeName := if c.isEnum then none else c.typeName
    options := { c.options with
      default := if c.isEnum then c.options.default.map canonicalDefault else c.options.default
      length := c.canonicalLength
      references := c.options.references.map canonicalReference } } := by
  rw [canonical, canonicalType, canonicalLength]
  cases he : c.isEnum with
  | true => rfl
  | false =>
    cases ht : c.typeName.bind ColumnType.ofName? with
    | none => rfl
    | some type => cases hs : type.supportsLength <;> simp [hs] <;> rfl

theorem kind_canonical (c : Column) : c.canonical.kind = c.kind := by
  rw [canonical_eq, kind, kind, canonicalLength, isEnum]
  cases he : c.options.enumName with
  | some e => rfl
  | none =>
    cases ht : c.typeName with
    | none => rfl
    | some name =>
      cases hn : ColumnType.ofName? name with
      | none => simp [hn]
      | some type => cases type <;> simp [hn, ColumnType.supportsLength]

theorem checkIdentifiers_canonical (c : Column) :
    c.canonical.checkIdentifiers = .ok () ↔ c.checkIdentifiers = .ok () := by
  have htests : c.canonical.unquotedNames.map Prod.snd = c.unquotedNames.map Prod.snd := by
    rw [canonical_eq, unquotedNames, unquotedNames]
    cases c.options.references with
    | none => rfl
    | some r => simp [canonicalReference, tableVariable_tableVariable]
  have hall : ∀ names : List (String × Bool),
      (∀ n ∈ names, n.2 = true) ↔ ∀ b ∈ names.map Prod.snd, b = true :=
    fun names => (List.forall_mem_map (P := (· = true))).symm
  rw [checkIdentifiers_eq_ok_iff, checkIdentifiers_eq_ok_iff, hall, hall, htests]

theorem qualifiersText_canonical (c : Column) :
    qualifiersText c.canonical.options = qualifiersText c.options := by
  rw [canonical_eq, qualifiersText, qualifiersText]
  congr 1
  · congr 1
    cases c.options.default with
    | none => simp
    | some d =>
      cases he : c.options.enumName with
      | some e => simp [isEnum, he, defaultText_canonicalDefault]
      | none => simp [isEnum, he]
  · cases c.options.references with
    | none => rfl
    | some r => simp [canonicalReference, tableVariable_tableVariable]

theorem imports_canonical (c : Column) : c.canonical.options.imports = c.options.imports := by
  rw [canonical_eq, ColumnOptions.imports, ColumnOptions.imports]
  congr 1
  · cases c.options.default with
    | none => simp
    | some d => cases d <;> cases c.isEnum <;> rfl
  · cases c.options.references with
    | none => rfl
    | some r => simp [canonicalReference, tableVariable_tableVariable]

theorem encoded_canonical (c : Column) (kind : ColumnKind) :
    c.canonical.encoded kind = c.encoded kind := by
  have hr : c.canonical.referencedTables = c.referencedTables := by
    rw [canonical_eq, referencedTables, referencedTables]
    cases c.options.references with
    | none => rfl
    | some r => simp [canonicalReference, tableVariable_tableVariable]
  rw [encoded, encoded, qualifiersText_canonical, imports_canonical, hr, canonical_name]

/-- **The canonical form of a column is written as the column.** -/
theorem encode_canonical {c : Column} {e : EncodedColumn} :
    c.canonical.encode = .ok e ↔ c.encode = .ok e := by
  rw [encode_eq_ok_iff, encode_eq_ok_iff, kind_canonical]
  simp only [checkIdentifiers_canonical, encoded_canonical]

end Column

theorem encodeColumns_canonical {columns : List Column} {body : EncodedBody} :
    encodeColumns (columns.map Column.canonical) = .ok body ↔ encodeColumns columns = .ok body := by
  rw [encodeColumns_eq_ok_iff, encodeColumns_eq_ok_iff]
  simp only [List.forall₂_map_left_iff, Column.encode_canonical]

/-! ## Entities -/

/-- **The canonical form of an enum is written as the enum.** -/
theorem EnumDef.generate_canonical {e : EnumDef} {g : GeneratedEntity} :
    e.canonical.generate = .ok g ↔ e.generate = .ok g := by
  have hd : e.canonical.Declarable ↔ e.Declarable := by
    constructor
    · rintro ⟨hn, hi, hv, hb⟩
      refine ⟨hn, by simpa [canonical] using hi, fun v hm => ?_, hb⟩
      rw [← Text.pascalCase_canonicalValue]
      exact hv _ (List.mem_map_of_mem hm)
    · rintro ⟨hn, hi, hv, hb⟩
      refine ⟨hn, by simpa [canonical] using hi, List.forall_mem_map.2 fun v hm => ?_, hb⟩
      rw [Text.pascalCase_canonicalValue]
      exact hv v hm
  have hg : e.canonical.generated = e.generated := by
    simp only [generated, canonical, databaseName, List.map_map, Function.comp_def,
      Text.pascalCase_canonicalValue]
  rw [generate_eq_ok_iff, generate_eq_ok_iff, hd, hg]

/-- **The canonical form of a helper is written as the helper.** -/
theorem HelperDef.generate_canonical {h : HelperDef} {g : GeneratedEntity} :
    h.canonical.generate = .ok g ↔ h.generate = .ok g := by
  have hd : h.canonical.Declarable ↔ h.Declarable := by
    have hc : h.canonical.columns ≠ [] ↔ h.columns ≠ [] := not_congr List.map_eq_nil_iff
    exact ⟨fun ⟨hn, hi, hb⟩ => ⟨hn, hc.1 hi, hb⟩, fun ⟨hn, hi, hb⟩ => ⟨hn, hc.2 hi, hb⟩⟩
  rw [generate_eq_ok_iff, generate_eq_ok_iff, hd]
  exact and_congr_right fun _ => exists_congr fun body => and_congr_left fun _ =>
    encodeColumns_canonical

namespace TableDef

theorem databaseName_canonical (t : TableDef) : t.canonical.databaseName = t.databaseName := by
  rw [canonical, databaseName, databaseName]
  cases t.dbName with
  | none => rfl
  | some db => by_cases hdb : db = Text.snakeCase t.name <;> simp [hdb, Option.filter]

theorem compositeKey_canonical (t : TableDef) : t.canonical.compositeKey = t.compositeKey := by
  by_cases h : 2 ≤ t.compositePrimaryKey.length <;> simp [canonical, compositeKey, h]

/-- **The canonical form of a table is written as the table.** -/
theorem generate_canonical {t : TableDef} {g : GeneratedEntity} :
    t.canonical.generate = .ok g ↔ t.generate = .ok g := by
  have hd : t.canonical.Declarable ↔ t.Declarable := by
    have hc : t.canonical.columns ≠ [] ↔ t.columns ≠ [] := not_congr List.map_eq_nil_iff
    exact ⟨fun ⟨hn, hi, hb, hv, hh⟩ => ⟨hn, hi.imp_left hc.1, hb, hv, hh⟩,
      fun ⟨hn, hi, hb, hv, hh⟩ => ⟨hn, hi.imp_left hc.2, hb, hv, hh⟩⟩
  have hg : ∀ body, t.canonical.generated body = t.generated body := by
    intro body
    rw [generated, generated, constraintsText, constraintsText, ownImports, ownImports,
      databaseName_canonical, compositeKey_canonical]
    rfl
  rw [generate_eq_ok_iff, generate_eq_ok_iff, hd]
  exact and_congr_right fun _ => exists_congr fun body =>
    and_congr encodeColumns_canonical (by rw [hg])

end TableDef

/-! ## Schemas -/

namespace Schema

/-- The same modules are generated of a schema and of its canonical form. -/
theorem generateBatch_canonical (s : Schema) :
    s.canonical.generateBatch.entities = s.generateBatch.entities := by
  have hsame : ∀ {x y : Except GenerationError GeneratedEntity},
      (∀ g, x = .ok g ↔ y = .ok g) → x.toOption = y.toOption := fun h =>
    Option.ext fun g => toOption_eq_some.trans ((h g).trans toOption_eq_some.symm)
  rw [entities_generateBatch, entities_generateBatch, canonical]
  simp only [List.filterMap_map, Function.comp_def]
  congr 1
  · congr 1
    · exact List.filterMap_congr fun e _ => hsame fun g => EnumDef.generate_canonical
    · exact List.filterMap_congr fun h _ => hsame fun g => HelperDef.generate_canonical
  · exact List.filterMap_congr fun t _ => hsame fun g => TableDef.generate_canonical

/-- **Canonical forms are their own canonical forms, and are written as what they
    are canonical forms of**: entity by entity, the same is written, or nothing of
    either. -/
theorem canonical_invisible (s : Schema) :
    s.canonical.canonical = s.canonical ∧
    List.Forall₂ (fun e c => ∀ g, e.generate = .ok g ↔ c.generate = .ok g)
      s.enums s.canonical.enums ∧
    List.Forall₂ (fun h c => ∀ g, h.generate = .ok g ↔ c.generate = .ok g)
      s.helpers s.canonical.helpers ∧
    List.Forall₂ (fun t c => ∀ g, t.generate = .ok g ↔ c.generate = .ok g)
      s.tables s.canonical.tables := by
  refine ⟨s.canonical_canonical, ?_, ?_, ?_⟩
  · exact List.forall₂_map_right_iff.2 (List.forall₂_same.2 fun e _ g =>
      EnumDef.generate_canonical.symm)
  · exact List.forall₂_map_right_iff.2 (List.forall₂_same.2 fun h _ g =>
      HelperDef.generate_canonical.symm)
  · exact List.forall₂_map_right_iff.2 (List.forall₂_same.2 fun t _ g =>
      TableDef.generate_canonical.symm)

end Schema

end SchemaLoom
