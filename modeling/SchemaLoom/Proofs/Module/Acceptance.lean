/-
  Which generated modules their readers accept.

  All names that a module holds unquoted are checked when it is generated, but
  for the columns of a composite key.  What else a reader may refuse is an enum
  column that looks like the declaration of an enum.

  * `HelperDef.accepted_iff`, `TableDef.accepted_iff`: one kind of entities;
  * `modules_accepted`: both, and any scope.
-/
import SchemaLoom.Proofs.Module.RoundTrip
import SchemaLoom.Proofs.Source.Words

namespace SchemaLoom

open Source

variable {g : GeneratedEntity}

/-- The module of a helper is read exactly if its columns are legible. -/
theorem HelperDef.accepted_iff {h : HelperDef} (hg : h.generate = .ok g)
    (hf : ∀ c ∈ h.columns, c.CallsFunction) (scope : ImportScope) :
    (∃ h', readHelper (g.render scope) = .ok h') ↔ ∀ c ∈ h.columns, c.Legible := by
  constructor
  · rintro ⟨h', hread⟩
    by_contra hl
    obtain ⟨e, he⟩ := read_refused hg hf hl scope
    rw [hread] at he
    cases he
  · intro hl
    exact ⟨h.reread, read_render_reread hg hf hl scope⟩

namespace TableDef

variable {t : TableDef}

/-- The key that counts is the one that is read back. -/
theorem compositePrimaryKey_reread {key : List String} (hk : t.compositeKey = some key) :
    t.reread.compositePrimaryKey = key := by
  show t.compositeKey.getD [] = key
  rw [hk]
  rfl

/-- The module of a table is read, and its composite key is the one that was
    declared, exactly if its columns are legible and the key lists
    identifiers. -/
theorem accepted_iff (hg : t.generate = .ok g) (hf : ∀ c ∈ t.columns, c.CallsFunction)
    (scope : ImportScope) :
    (∃ t', readTable t.name (g.render scope) = .ok t' ∧
      ∀ key, t.compositeKey = some key → t'.compositePrimaryKey = key) ↔
    (∀ c ∈ t.columns, c.Legible) ∧
      ∀ key, t.compositeKey = some key → ∀ c ∈ key, Text.isIdentifier c = true := by
  constructor
  · rintro ⟨t', hread, hkey⟩
    -- a reader answers with identifiers only, so the declared key lists them
    have hids : ∀ key, t.compositeKey = some key → ∀ c ∈ key, Text.isIdentifier c = true := by
      intro key hk c hc
      rw [← hkey key hk] at hc
      exact isIdentifier_of_readTable hread hc
    refine ⟨?_, hids⟩
    by_contra hl
    obtain ⟨e, he⟩ := read_refused hg ⟨hf, hids⟩ hl t.name scope
    rw [hread] at he
    cases he
  · rintro ⟨hl, hids⟩
    refine ⟨t.reread, read_render_reread hg ⟨hf, hids⟩ hl scope, ?_⟩
    intro key hk
    exact compositePrimaryKey_reread hk

end TableDef

/-- **Which generated modules are accepted.**  If the defaults that are calls
    name functions, as those of a definition do, the module of a helper is read
    exactly if no enum of its columns is named like the call that declares
    enums; and the module of a table is read with the composite key that was
    declared exactly if, besides, the key lists identifiers. -/
theorem modules_accepted (scope : ImportScope) :
    (∀ (h : HelperDef) (g : GeneratedEntity), h.generate = .ok g →
      (∀ c ∈ h.columns, c.CallsFunction) →
      ((∃ h', readHelper (g.render scope) = .ok h') ↔ ∀ c ∈ h.columns, c.Legible)) ∧
    (∀ (t : TableDef) (g : GeneratedEntity), t.generate = .ok g →
      (∀ c ∈ t.columns, c.CallsFunction) →
      ((∃ t', readTable t.name (g.render scope) = .ok t' ∧
        ∀ key, t.compositeKey = some key → t'.compositePrimaryKey = key) ↔
      (∀ c ∈ t.columns, c.Legible) ∧
        ∀ key, t.compositeKey = some key → ∀ c ∈ key, Text.isIdentifier c = true)) :=
  ⟨fun _ _ hg hf => HelperDef.accepted_iff hg hf scope,
    fun _ _ hg hf => TableDef.accepted_iff hg hf scope⟩

/-- A table whose composite key lists a column that is not declared, and whose
    name holds a blank. -/
def ordersTable : TableDef where
  name := "orders"
  columns := [.ofType "id" .uuid]
  compositePrimaryKey := ["id", "unit price"]

/-- The module of a table with such a key is generated but not accepted, while
    that of a helper of the same columns is. -/
theorem modules_accepted_orders :
    ∃ g g', HelperDef.generate ⟨"Keyed", ordersTable.columns⟩ = .ok g ∧
      ordersTable.generate = .ok g' ∧
      (∃ h', readHelper (g.render .singleModule) = .ok h') ∧
      ¬∃ t', readTable "orders" (g'.render .singleModule) = .ok t' ∧
        ∀ key, ordersTable.compositeKey = some key → t'.compositePrimaryKey = key := by
  have hf : ∀ c ∈ ordersTable.columns, c.CallsFunction := by
    rw [ordersTable, List.forall_mem_singleton]
    exact nofun
  have hl : ∀ c ∈ ordersTable.columns, c.Legible := by
    rw [ordersTable, List.forall_mem_singleton]
    exact nofun
  obtain ⟨hhelpers, htables⟩ := modules_accepted .singleModule
  refine ⟨_, _, rfl, rfl, (hhelpers ⟨"Keyed", ordersTable.columns⟩ _ rfl hf).2 hl, ?_⟩
  intro hread
  obtain ⟨-, hids⟩ := (htables ordersTable _ rfl hf).1 hread
  exact absurd (hids ["id", "unit price"] rfl "unit price" (by simp)) (by decide)

end SchemaLoom
