/-
  Which entities can be written, and what is written of them.

  What a generator checks is a structure (`EnumDef.Declarable`), and what it
  answers a function of the entity and its written columns
  (`EnumDef.generated`).

  * `Column.encode_eq_ok_iff`, `encodeColumns_eq_ok_iff`;
  * `EnumDef.generate_eq_ok_iff`, `HelperDef.generate_eq_ok_iff`,
    `TableDef.generate_eq_ok_iff`.
-/
import Mathlib.Data.List.Forall2
import SchemaLoom.Module.Entity
import SchemaLoom.Proofs.Results

namespace SchemaLoom

theorem checkBinding_eq_ok_iff {what name : String} :
    checkBinding what name = .ok () ↔ Text.isBindingName name = true := by
  rw [checkBinding]
  split
  next hb => exact ⟨fun _ => hb, fun _ => rfl⟩
  next hb => exact ⟨nofun, fun h => absurd h hb⟩

/-- What is checked before the rest must hold. -/
theorem check_eq_ok_iff {ε α : Type} {x : Except ε Unit} {y : Except ε α} {a : α} :
    (do x; y) = .ok a ↔ x = .ok () ∧ y = .ok a := by
  rw [bind_eq_ok]
  exact ⟨fun ⟨(), h⟩ => h, fun h => ⟨(), h⟩⟩

/-- What is refused must not hold. -/
theorem refuse_eq_ok_iff {ε α : Type} {b : Bool} {e : ε} {f : Unit → Except ε α} {a : α} :
    (if b = true then throw e >>= f else f ()) = .ok a ↔ b = false ∧ f () = .ok a := by
  cases b with
  | true => exact ⟨nofun, nofun⟩
  | false => exact ⟨fun h => ⟨rfl, h⟩, And.right⟩

/-! ## Columns -/

namespace Column

/-- What a column is written as if it is of this kind. -/
def encoded (c : Column) (kind : ColumnKind) : EncodedColumn where
  fragment := c.name ++ ": " ++ constructorText c.name kind ++ qualifiersText c.options
  imports := .ofList (kind.neededImport :: c.options.imports)
  referencedTables := c.referencedTables

theorem encode_eq_ok_iff {c : Column} {e : EncodedColumn} : c.encode = .ok e ↔
    ∃ kind, c.kind = .ok kind ∧ c.checkIdentifiers = .ok () ∧ e = c.encoded kind := by
  rw [encode, bind_eq_ok]
  refine exists_congr fun kind => and_congr_right fun _ => ?_
  rw [check_eq_ok_iff]
  exact and_congr_right fun _ => ⟨fun h => (Except.ok.inj h).symm, fun h => congrArg _ h.symm⟩

end Column

/-- The body of columns that are written so. -/
def EncodedBody.ofColumns (encoded : List EncodedColumn) : EncodedBody where
  lines := encoded.map fun e => "  " ++ e.fragment ++ ","
  imports := encoded.foldl (fun s e => s.union e.imports) .empty
  referencedTables := (encoded.flatMap EncodedColumn.referencedTables).foldl addNew []

theorem encodeColumns_eq_ok_iff {columns : List Column} {body : EncodedBody} :
    encodeColumns columns = .ok body ↔ ∃ encoded,
      List.Forall₂ (fun c e => c.encode = .ok e) columns encoded ∧ body = .ofColumns encoded := by
  rw [encodeColumns, bind_eq_ok]
  refine exists_congr fun encoded => and_congr ?_
    ⟨fun h => (Except.ok.inj h).symm, fun h => congrArg _ h.symm⟩
  rw [mapM_eq_ok, ← List.forall₂_eq_eq_eq, List.forall₂_map_left_iff, List.forall₂_map_right_iff]
  simp only [mapError_eq_ok]

/-! ## Enums -/

namespace EnumDef

/-- What the generator of enums checks. -/
structure Declarable (e : EnumDef) : Prop where
  named : isBlankName e.name = false
  inhabited : e.values ≠ []
  values : ∀ v ∈ e.values, (Text.pascalCase v).isEmpty = false
  binding : Text.isBindingName e.name = true

/-- What an enum is written as. -/
def generated (e : EnumDef) : GeneratedEntity where
  kind := .enum
  name := e.name
  declaration := "export const " ++ e.name ++ " = pgEnum(" ++ Text.quote e.databaseName ++
    ", [" ++ ", ".intercalate (e.values.map fun v => Text.quote (Text.pascalCase v)) ++
    "] as const);"
  imports := .ofList [.pgCore "pgEnum"]
  referencedTables := []

theorem generate_eq_ok_iff {e : EnumDef} {g : GeneratedEntity} :
    e.generate = .ok g ↔ e.Declarable ∧ g = e.generated := by
  rw [generate, refuse_eq_ok_iff, check_eq_ok_iff, checkBinding_eq_ok_iff, ← and_assoc]
  refine and_congr ?_ ⟨fun h => (Except.ok.inj h).symm, fun h => congrArg _ h.symm⟩
  simp only [Bool.or_eq_false_iff, List.isEmpty_eq_false_iff, List.any_eq_false,
    Bool.not_eq_true]
  exact ⟨fun ⟨⟨⟨hn, hv⟩, hp⟩, hb⟩ => ⟨hn, hv, hp, hb⟩,
    fun ⟨hn, hv, hp, hb⟩ => ⟨⟨⟨hn, hv⟩, hp⟩, hb⟩⟩

end EnumDef

/-! ## Helpers -/

namespace HelperDef

/-- What the generator of helpers checks besides the columns. -/
structure Declarable (h : HelperDef) : Prop where
  named : isBlankName h.name = false
  inhabited : h.columns ≠ []
  binding : Text.isBindingName h.name = true

/-- What a helper with this body is written as. -/
def generated (h : HelperDef) (body : EncodedBody) : GeneratedEntity where
  kind := .helper
  name := h.name
  declaration := "\n".intercalate
    (("export const " ++ h.name ++ " = \x7b") :: (body.lines ++ ["\x7d;"]))
  imports := body.imports
  referencedTables := body.referencedTables

theorem generate_eq_ok_iff {h : HelperDef} {g : GeneratedEntity} : h.generate = .ok g ↔
    h.Declarable ∧ ∃ body, encodeColumns h.columns = .ok body ∧ g = h.generated body := by
  rw [generate, refuse_eq_ok_iff, check_eq_ok_iff, checkBinding_eq_ok_iff, ← and_assoc, bind_eq_ok]
  refine and_congr ?_ (exists_congr fun body => and_congr_right fun _ =>
    ⟨fun h => (Except.ok.inj h).symm, fun h => congrArg _ h.symm⟩)
  rw [Bool.or_eq_false_iff, List.isEmpty_eq_false_iff]
  exact ⟨fun ⟨⟨hn, hc⟩, hb⟩ => ⟨hn, hc, hb⟩, fun ⟨hn, hc, hb⟩ => ⟨⟨hn, hc⟩, hb⟩⟩

end HelperDef

/-! ## Tables -/

namespace TableDef

/-- What the generator of tables checks besides the columns. -/
structure Declarable (t : TableDef) : Prop where
  named : isBlankName t.name = false
  inhabited : t.columns ≠ [] ∨ t.helperReferences ≠ []
  binding : Text.isBindingName t.name = true
  bound : Text.isBindingName t.variableName = true
  helpers : ∀ h ∈ t.helperReferences, Text.isBindingName h = true

/-- What a table with this body is written as. -/
def generated (t : TableDef) (body : EncodedBody) : GeneratedEntity where
  kind := .table
  name := t.name
  declaration := "\n".intercalate
    (("export const " ++ t.variableName ++ " = pgTable(" ++ Text.quote t.databaseName ++
        ", \x7b") ::
      (body.lines ++ t.helperReferences.map (fun h => "  ..." ++ h ++ ",") ++
        ["\x7d" ++ t.constraintsText ++ ");"]))
  imports := (body.imports.union (.ofList t.ownImports)).erase (.table t.variableName)
  referencedTables := body.referencedTables

theorem generate_eq_ok_iff {t : TableDef} {g : GeneratedEntity} : t.generate = .ok g ↔
    t.Declarable ∧ ∃ body, encodeColumns t.columns = .ok body ∧ g = t.generated body := by
  rw [generate, refuse_eq_ok_iff, refuse_eq_ok_iff, check_eq_ok_iff, check_eq_ok_iff,
    check_eq_ok_iff, checkBinding_eq_ok_iff, checkBinding_eq_ok_iff, forM_eq_ok, bind_eq_ok]
  simp only [checkBinding_eq_ok_iff, ← and_assoc]
  refine and_congr ?_ (exists_congr fun body => and_congr_right fun _ =>
    ⟨fun h => (Except.ok.inj h).symm, fun h => congrArg _ h.symm⟩)
  rw [Bool.and_eq_false_iff, List.isEmpty_eq_false_iff, List.isEmpty_eq_false_iff]
  exact ⟨fun ⟨⟨⟨⟨hn, hi⟩, hb⟩, hv⟩, hh⟩ => ⟨hn, hi, hb, hv, hh⟩,
    fun ⟨hn, hi, hb, hv, hh⟩ => ⟨⟨⟨⟨hn, hi⟩, hb⟩, hv⟩, hh⟩⟩

end TableDef

end SchemaLoom
