/-
  Canonical forms stay.

  * `Schema.canonical_canonical`: the canonical form of a canonical form is
    itself, part by part.
-/
import SchemaLoom.Proofs.Text.Casing
import SchemaLoom.Schema.Project

namespace SchemaLoom

theorem tableVariable_tableVariable (name : String) :
    tableVariable (tableVariable name) = tableVariable name :=
  Text.lowerText_lowerText name

/-! ## Columns -/

theorem optionMap_optionMap {α : Type} {f : α → α} (h : ∀ a, f (f a) = f a) (o : Option α) :
    (o.map f).map f = o.map f := by
  cases o <;> simp [h]

theorem listMap_listMap {α : Type} {f : α → α} (h : ∀ a, f (f a) = f a) (as : List α) :
    (as.map f).map f = as.map f := by
  rw [List.map_map]
  exact List.map_congr_left fun a _ => h a

namespace Column

theorem canonicalDefault_canonicalDefault (d : DefaultValue) :
    canonicalDefault (canonicalDefault d) = canonicalDefault d := by
  cases d with
  | text s => exact congrArg DefaultValue.text (Text.canonicalValue_canonicalValue s)
  | boolean b => rfl
  | integer i => rfl
  | call f => rfl

/-- The reference of a canonical column names the variable of the table. -/
def canonicalReference (r : ColumnReference) : ColumnReference :=
  { r with table := tableVariable r.table }

theorem canonicalReference_canonicalReference (r : ColumnReference) :
    canonicalReference (canonicalReference r) = canonicalReference r :=
  congrArg (ColumnReference.mk · r.column) (tableVariable_tableVariable r.table)

theorem canonical_name (c : Column) : c.canonical.name = c.name := by
  rw [canonical, canonicalType]
  split
  · rfl
  · split
    · split <;> rfl
    · rfl

theorem canonical_canonical (c : Column) : c.canonical.canonical = c.canonical := by
  have hr := optionMap_optionMap canonicalReference_canonicalReference c.options.references
  have hd := optionMap_optionMap canonicalDefault_canonicalDefault c.options.default
  have hc : ∀ c : Column, c.canonical = { c.canonicalType with
      options := { c.canonicalType.options with
        references := c.canonicalType.options.references.map canonicalReference } } := fun _ => rfl
  rw [hc, hc]
  cases he : c.options.enumName with
  | some e => simp [canonicalType, isEnum, he, hr, hd]
  | none =>
    cases ht : c.typeName.bind ColumnType.ofName? with
    | none => simp [canonicalType, isEnum, he, ht, hr]
    | some t => cases hs : t.supportsLength <;> simp [canonicalType, isEnum, he, ht, hs, hr]

end Column

/-! ## Entities -/

theorem EnumDef.canonical_canonical (e : EnumDef) : e.canonical.canonical = e.canonical :=
  congrArg (EnumDef.mk e.name) (listMap_listMap Text.canonicalValue_canonicalValue e.values)

theorem HelperDef.canonical_canonical (h : HelperDef) : h.canonical.canonical = h.canonical :=
  congrArg (HelperDef.mk h.name) (listMap_listMap Column.canonical_canonical h.columns)

theorem TableDef.canonical_canonical (t : TableDef) : t.canonical.canonical = t.canonical := by
  have hd : ∀ db : Option String, (db.filter fun db => db != Text.snakeCase t.name).filter
      (fun db => db != Text.snakeCase t.name) =
        db.filter fun db => db != Text.snakeCase t.name := by
    intro db
    rw [Option.filter_filter]
    simp
  have hk : t.canonical.compositeKey.getD [] = t.compositeKey.getD [] := by
    by_cases h : 2 ≤ t.compositePrimaryKey.length
    · simp [canonical, compositeKey, h]
    · simp [canonical, compositeKey, h]
  rw [canonical, hk]
  simp only [canonical, hd, listMap_listMap Column.canonical_canonical]

/-- **The canonical form of a schema is its own canonical form.** -/
theorem Schema.canonical_canonical (s : Schema) : s.canonical.canonical = s.canonical := by
  simp only [canonical, listMap_listMap EnumDef.canonical_canonical,
    listMap_listMap HelperDef.canonical_canonical, listMap_listMap TableDef.canonical_canonical]

end SchemaLoom
