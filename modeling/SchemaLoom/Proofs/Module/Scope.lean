/-
  What a generated module imports is what its declaration uses.

  * `Entity.mem_imports`: the imports of an entity are what it uses, but for the
    variable of its own table;
  * `Entity.closed_declaration`, `Entity.mentions_tokens`: the names in the text
    of the declaration are that of the entity and those of what it uses;
  * `Schema.exists_provider`: in a valid schema, every entity that is used is
    there.
-/
import SchemaLoom.Proofs.Module.Names
import SchemaLoom.Proofs.Project.Entities
import SchemaLoom.Proofs.Validation.Rules

namespace SchemaLoom

open Source

variable {i : Import}

/-! ## Sets of imports -/

namespace ImportSet

theorem mem_erase {s : ImportSet} {j : Import} : j ∈ (s.erase i).items ↔ j ∈ s.items ∧ j ≠ i := by
  rw [erase, List.mem_filter, bne_iff_ne]

theorem mem_foldl_union {β : Type} {xs : List β} {f : β → ImportSet} {s : ImportSet} :
    i ∈ (xs.foldl (fun s x => s.union (f x)) s).items ↔
      i ∈ s.items ∨ ∃ x ∈ xs, i ∈ (f x).items := by
  induction xs generalizing s with
  | nil => simp
  | cons x xs ih =>
    rw [List.foldl_cons, ih, mem_union, List.exists_mem_cons_iff, or_comm (a := i ∈ (f x).items),
      or_assoc]

end ImportSet

/-- A table that binds a variable is known by it. -/
theorem ImportScope.exists_tableModule {scope : ImportScope} {tables : List TableDef}
    (hs : scope.tableNames = []) {t : TableDef} (ht : t ∈ tables) :
    ∃ u ∈ tables, u.variableName = t.variableName ∧
      (scope.withTables tables).tableModule t.variableName = u.name := by
  rw [tableModule, withTables, hs, List.nil_append]
  cases hf : (tables.map TableDef.name).reverse.find?
      fun name => tableVariable name == t.variableName with
  | none =>
    have := List.find?_eq_none.1 hf t.name (List.mem_reverse.2 (List.mem_map_of_mem ht))
    exact absurd (beq_self_eq_true t.variableName) this
  | some name =>
    obtain ⟨u, hu, rfl⟩ := List.mem_map.1 (List.mem_reverse.1 (List.mem_of_find?_eq_some hf))
    have hb : tableVariable u.name = t.variableName := by simpa using List.find?_some hf
    exact ⟨u, hu, hb, rfl⟩

/-- The imports of columns are what they use. -/
theorem mem_imports_of_encodeColumns {columns : List Column} {body : EncodedBody}
    (h : encodeColumns columns = .ok body) :
    i ∈ body.imports.items ↔ i ∈ columns.flatMap Column.uses := by
  obtain ⟨encoded, hall, rfl⟩ := encodeColumns_eq_ok_iff.1 h
  have hcolumn : ∀ {c : Column} {e : EncodedColumn}, c.encode = .ok e →
      (i ∈ e.imports.items ↔ i ∈ c.uses) := by
    intro c e he
    obtain ⟨kind, hk, -, rfl⟩ := Column.encode_eq_ok_iff.1 he
    rw [Column.uses_eq hk, Column.encoded, ImportSet.mem_ofList]
  rw [EncodedBody.ofColumns, ImportSet.mem_foldl_union, List.mem_flatMap]
  refine (or_iff_right List.not_mem_nil).trans ?_
  clear h
  induction hall with
  | nil => simp
  | cons he _ ih => rw [List.exists_mem_cons_iff, List.exists_mem_cons_iff, hcolumn he, ih]

/-- A column uses exports of libraries, its enum, and the table that it refers
    to. -/
theorem Column.uses_cases {c : Column} (h : i ∈ c.uses) :
    (∃ name, i = .pgCore name) ∨ i = .sql ∨
      (∃ name, c.options.enumName = some name ∧ i = .enum name) ∨
      ∃ r, c.options.references = some r ∧ i = .table (tableVariable r.table) := by
  cases hk : c.kind with
  | error e =>
    simp only [uses, hk] at h
    cases h
  | ok kind =>
    rw [uses_eq hk, ColumnOptions.imports, List.mem_cons, List.mem_append] at h
    rcases h with rfl | h | h
    · rcases kind_cases hk with ⟨e, he, rfl⟩ | ⟨type, -, -, -, rfl⟩
      · exact .inr (.inr (.inl ⟨e, he, rfl⟩))
      · exact .inl ⟨_, rfl⟩
    · split at h
      · exact .inr (.inl (List.mem_singleton.1 h))
      · cases h
    · split at h
      next r hr => exact .inr (.inr (.inr ⟨r, hr, List.mem_singleton.1 h⟩))
      · cases h

/-- The members of a table use what its columns use, and the helpers. -/
theorem TableDef.uses_members (t : TableDef) : t.members.flatMap Parse.Member.uses =
    t.columns.flatMap Column.uses ++ t.helperReferences.map .helper := by
  rw [members, List.flatMap_append, List.flatMap_map, List.flatMap_map, List.map_eq_flatMap]
  rfl

/-- The first of some lines begins their text. -/
theorem exists_intercalate_cons (line : String) (lines : List String) :
    ∃ rest, "\n".intercalate (line :: lines) = line ++ rest := by
  cases lines with
  | nil => exact ⟨"", by simp⟩
  | cons l ls => exact ⟨_, String.intercalate_cons_cons.trans (String.append_assoc ..)⟩

/-! ## Entities -/

/-- The kind of the entity that an import names, if it is not one of a
    library. -/
def Import.kind? : Import → Option EntityKind
  | enum _ => some .enum
  | helper _ => some .helper
  | table _ => some .table
  | pgCore _ | sql => none

namespace Entity

/-- The columns of an entity. -/
def columns : Entity → List Column
  | enum _ => []
  | helper h => h.columns
  | table t => t.columns

/-- What the declaration of an entity uses. -/
def uses : Entity → List Import
  | enum e => e.uses
  | helper h => h.uses
  | table t => t.uses

/-- The import that an entity satisfies. -/
def provides : Entity → Import
  | enum e => .enum e.name
  | helper h => .helper h.name
  | table t => .table t.variableName

/-- The tokens of the declaration of an entity. -/
def tokens : Entity → List Token
  | enum e => e.declarationTokens
  | helper h => h.declarationTokens
  | table t => t.declarationTokens

/-- The text of the declaration spells its tokens. -/
def Spellable : Entity → Prop
  | enum _ => True
  | helper h => ∀ c ∈ h.columns, c.CallsFunction
  | table t => t.Spellable

variable {e : Entity} {g : GeneratedEntity}

theorem provides_generate (h : e.generate = .ok g) : g.provides = e.provides := by
  have href := ref_generate h
  cases e with
  | _ e =>
    obtain ⟨hk, hn⟩ := EntityRef.mk.inj href
    rw [GeneratedEntity.provides, hk, hn]
    rfl

/-- Enums and helpers that an entity uses are of an earlier kind. -/
theorem rank_lt_of_mem_uses (hi : i ∈ e.uses)
    (hk : i.kind? = some .enum ∨ i.kind? = some .helper) : i.rank < e.provides.rank := by
  cases e with
  | enum e =>
    rw [List.mem_singleton.1 hi] at hk
    simp [Import.kind?] at hk
  | helper h =>
    obtain ⟨c, -, hc⟩ := List.mem_flatMap.1 hi
    rcases c.uses_cases hc with ⟨_, rfl⟩ | rfl | ⟨_, -, rfl⟩ | ⟨_, -, rfl⟩ <;>
      simp [Import.kind?, Import.rank, provides] at hk ⊢
  | table t => cases i <;> simp [Import.kind?, Import.rank, provides] at hk ⊢

/-- **An entity imports what it uses**, but for the variable of its own table. -/
theorem mem_imports (h : e.generate = .ok g) :
    i ∈ g.imports.items ↔ i ∈ e.uses ∧ i ≠ e.provides := by
  cases e with
  | enum e =>
    obtain ⟨-, rfl⟩ := EnumDef.generate_eq_ok_iff.1 h
    rw [EnumDef.generated, ImportSet.mem_ofList]
    refine (and_iff_left_of_imp ?_).symm
    rintro hi rfl
    exact Nat.lt_irrefl _ (rank_lt_of_mem_uses hi (.inl rfl))
  | helper h' =>
    obtain ⟨-, body, hb, rfl⟩ := HelperDef.generate_eq_ok_iff.1 h
    rw [HelperDef.generated, mem_imports_of_encodeColumns hb]
    refine (and_iff_left_of_imp ?_).symm
    rintro hi rfl
    exact Nat.lt_irrefl _ (rank_lt_of_mem_uses hi (.inr rfl))
  | table t =>
    obtain ⟨-, body, hb, rfl⟩ := TableDef.generate_eq_ok_iff.1 h
    rw [TableDef.generated, ImportSet.mem_erase, ImportSet.mem_union, ImportSet.mem_ofList,
      mem_imports_of_encodeColumns hb]
    refine and_congr_left fun hi => ?_
    have hkey : i ∈ t.keyUses ↔
        i ∈ if t.compositeKey.isSome then [Import.pgCore "primaryKey"] else [] := by
      rw [TableDef.keyUses]
      cases t.compositeKey with
      | none => rfl
      | some columns =>
        have hi : i ∉ columns.map fun _ => Import.table t.variableName := fun hm => by
          obtain ⟨_, -, rfl⟩ := List.mem_map.1 hm
          exact hi rfl
        simp only [List.mem_cons, hi, Option.isSome_some, if_pos, List.not_mem_nil]
    simp only [uses, TableDef.uses, TableDef.uses_members, TableDef.ownImports, List.mem_cons,
      List.mem_append, hkey]
    tauto

/-- A declaration exports its name. -/
theorem exists_declaration (h : e.generate = .ok g) :
    ∃ value, g.declaration = "export const " ++ e.provides.name ++ " = " ++ value := by
  cases e with
  | enum e =>
    obtain ⟨-, rfl⟩ := EnumDef.generate_eq_ok_iff.1 h
    exact ⟨"pgEnum(" ++ Text.quote e.databaseName ++ ", [" ++
      ", ".intercalate (e.values.map fun v => Text.quote (Text.pascalCase v)) ++ "] as const);",
      String.toList_injective (by simp [EnumDef.generated, provides, Import.name])⟩
  | helper h' =>
    obtain ⟨-, body, -, rfl⟩ := HelperDef.generate_eq_ok_iff.1 h
    obtain ⟨rest, hr⟩ := exists_intercalate_cons ("export const " ++ h'.name ++ " = \x7b")
      (body.lines ++ ["\x7d;"])
    exact ⟨"\x7b" ++ rest,
      hr.trans (String.toList_injective (by simp [provides, Import.name]))⟩
  | table t =>
    obtain ⟨-, body, -, rfl⟩ := TableDef.generate_eq_ok_iff.1 h
    obtain ⟨rest, hr⟩ := exists_intercalate_cons ("export const " ++ t.variableName ++
      " = pgTable(" ++ Text.quote t.databaseName ++ ", \x7b")
      (body.lines ++ t.helperReferences.map (fun h => "  ..." ++ h ++ ",") ++
        ["\x7d" ++ t.constraintsText ++ ");"])
    exact ⟨"pgTable(" ++ Text.quote t.databaseName ++ ", \x7b" ++ rest,
      hr.trans (String.toList_injective (by simp [provides, Import.name]))⟩

/-- What is imported has an identifier for a name. -/
theorem named_imports (h : e.generate = .ok g) : g.imports.Named := by
  cases e with
  | enum e => exact (EnumDef.generate_eq_ok h).2.1
  | helper h' =>
    obtain ⟨-, body, hb, rfl⟩ := HelperDef.generate_eq_ok_iff.1 h
    exact (encodeColumns_eq_ok hb).2.1
  | table t =>
    obtain ⟨hd, body, hb, rfl⟩ := TableDef.generate_eq_ok_iff.1 h
    have hown := TableDef.named_ownImports fun h hh =>
      isIdentifier_of_isBindingName (hd.helpers h hh)
    exact ((encodeColumns_eq_ok hb).2.1.union hown).erase _

/-- The text of the declaration spells its tokens. -/
theorem closed_declaration (h : e.generate = .ok g) (hs : e.Spellable) :
    Closed g.declaration e.tokens := by
  cases e with
  | enum e => exact (EnumDef.generate_eq_ok h).2.2
  | helper h' => exact (HelperDef.generate_eq_ok h hs).2.2
  | table t => exact (TableDef.generate_eq_ok h hs).2.2

/-- **A declaration binds the name of the entity, and uses no other names than
    those of what the entity uses.** -/
theorem mentions_tokens (e : Entity) :
    Mentions e.tokens (.binding e.provides.name :: e.uses.map Import.used) := by
  cases e with
  | enum e => exact e.mentions_tokens
  | helper h => exact h.mentions_tokens
  | table t => exact t.mentions_tokens

end Entity

/-! ## Schemas -/

theorem Entity.kind?_provides (e : Entity) : e.provides.kind? = some e.ref.kind := by
  cases e <;> rfl

namespace Schema

variable {s : Schema} {e : Entity}

theorem mem_entities_enum {d : EnumDef} : .enum d ∈ s.entities ↔ d ∈ s.enums := by
  simp [entities]

theorem mem_entities_helper {d : HelperDef} : .helper d ∈ s.entities ↔ d ∈ s.helpers := by
  simp [entities]

theorem mem_entities_table {d : TableDef} : .table d ∈ s.entities ↔ d ∈ s.tables := by
  simp [entities]

theorem mem_columns_of_entity (he : e ∈ s.entities) {c : Column} (hc : c ∈ e.columns) :
    c ∈ s.columns := by
  cases e with
  | enum e => cases hc
  | helper h => exact mem_columns_of_helper (mem_entities_helper.1 he) hc
  | table t => exact mem_columns_of_table (mem_entities_table.1 he) hc

/-- The entities are in the order of their kinds. -/
theorem pairwise_entities (s : Schema) :
    s.entities.Pairwise fun d e => d.provides.rank ≤ e.provides.rank := by
  have hsame : ∀ {α : Type} (f : α → Entity) (rank : Nat),
      (∀ a, (f a).provides.rank = rank) → ∀ xs : List α,
      (xs.map f).Pairwise fun d e => d.provides.rank ≤ e.provides.rank := by
    intro α f rank hf xs
    rw [List.pairwise_map]
    exact List.pairwise_of_forall fun a b => Nat.le_of_eq ((hf a).trans (hf b).symm)
  rw [entities, List.pairwise_append, List.pairwise_append]
  simp only [List.forall_mem_append, List.forall_mem_map]
  refine ⟨⟨hsame .enum 2 (fun _ => rfl) _, hsame .helper 3 (fun _ => rfl) _, fun e _ h _ => ?_⟩,
    hsame .table 4 (fun _ => rfl) _, fun e _ t _ => ?_, fun h _ t _ => ?_⟩ <;>
    simp [Entity.provides, Import.rank]

section
variable (hv : hasErrors s.validate = false)
include hv

/-- Tables of a valid schema are bound to variables of their own. -/
theorem nodup_variables : (s.tables.map TableDef.variableName).Nodup := by
  have hnames : (s.tables.map TableDef.name).Nodup := nodup_namesOf hv .table
  have hvariables : ((s.tables.map TableDef.name).map tableVariable).Nodup := by
    refine hnames.map_on fun a ha b hb he => ?_
    obtain ⟨t, ht, rfl⟩ := List.mem_map.1 ha
    obtain ⟨u, hu, rfl⟩ := List.mem_map.1 hb
    by_contra hne
    exact valid_iff.1 hv .duplicateTableVariable rfl ⟨t, ht, u, hu, he, hne⟩
  rwa [List.map_map] at hvariables

/-- What a column of a valid schema uses is there. -/
theorem exists_provider_of_column {c : Column} (hc : c ∈ s.columns) (hi : i ∈ c.uses)
    (hk : i.kind?.isSome) : ∃ d ∈ s.entities, d.provides = i := by
  rcases c.uses_cases hi with ⟨_, rfl⟩ | rfl | ⟨name, hn, rfl⟩ | ⟨r, hr, rfl⟩
  · cases hk
  · cases hk
  · have hm : name ∈ s.namesOf .enum := by
      by_contra hm
      exact valid_iff.1 hv .unknownEnum rfl ⟨c, hc, name, hn, hm⟩
    obtain ⟨d, hd, rfl⟩ := List.mem_map.1 hm
    exact ⟨.enum d, mem_entities_enum.2 hd, rfl⟩
  · cases ht : s.referencedTable? r with
    | none => exact absurd ⟨c, hc, r, hr, ht⟩ (valid_iff.1 hv .unknownReferenceTable rfl)
    | some t =>
      have hb : t.variableName = tableVariable r.table := by simpa using List.find?_some ht
      exact ⟨.table t, mem_entities_table.2 (List.mem_of_find?_eq_some ht), congrArg _ hb⟩

/-- **What an entity of a valid schema uses is there.** -/
theorem exists_provider (he : e ∈ s.entities) (hi : i ∈ e.uses) (hk : i.kind?.isSome) :
    ∃ d ∈ s.entities, d.provides = i := by
  cases e with
  | enum e =>
    rw [List.mem_singleton.1 hi] at hk
    cases hk
  | helper h =>
    obtain ⟨c, hc, hi⟩ := List.mem_flatMap.1 hi
    exact exists_provider_of_column hv (mem_columns_of_helper (mem_entities_helper.1 he) hc) hi hk
  | table t =>
    have ht := mem_entities_table.1 he
    simp only [Entity.uses, TableDef.uses, TableDef.uses_members, List.mem_cons,
      List.mem_append, List.mem_map] at hi
    rcases hi with rfl | (hi | ⟨name, hn, rfl⟩) | hi
    · cases hk
    · obtain ⟨c, hc, hi⟩ := List.mem_flatMap.1 hi
      exact exists_provider_of_column hv (mem_columns_of_table ht hc) hi hk
    · have hm : name ∈ s.namesOf .helper := by
        by_contra hm
        exact valid_iff.1 hv .unknownHelper rfl ⟨t, ht, name, hn, hm⟩
      obtain ⟨d, hd, rfl⟩ := List.mem_map.1 hm
      exact ⟨.helper d, mem_entities_helper.2 hd, rfl⟩
    · rw [TableDef.keyUses] at hi
      split at hi
      · rcases List.mem_cons.1 hi with rfl | hi
        · cases hk
        · obtain ⟨_, -, rfl⟩ := List.mem_map.1 hi
          exact ⟨.table t, he, rfl⟩
      · cases hi

end

/-! ## Batches -/

variable {g : GeneratedEntity}

theorem exists_generate (hb : s.generateBatch.errors = []) (he : e ∈ s.entities) :
    ∃ g, e.generate = .ok g := by
  have hall : ∀ {α : Type} {fault : GenerationError → EntityError} {x : Except GenerationError α}
      {y : α}, x.mapError fault = .ok y → x = .ok y := mapError_eq_ok.1
  cases e with
  | enum e =>
    obtain ⟨g, hg⟩ := exists_of_attempt hb (List.mem_append_left _ (List.mem_append_left _
      (List.mem_map_of_mem (mem_entities_enum.1 he))))
    exact ⟨g, hall hg⟩
  | helper h =>
    obtain ⟨g, hg⟩ := exists_of_attempt hb (List.mem_append_left _ (List.mem_append_right _
      (List.mem_map_of_mem (mem_entities_helper.1 he))))
    exact ⟨g, hall hg⟩
  | table t =>
    obtain ⟨g, hg⟩ := exists_of_attempt hb (List.mem_append_right _
      (List.mem_map_of_mem (mem_entities_table.1 he)))
    exact ⟨g, hall hg⟩

/-- **If nothing fails, each entity is generated**, in their order. -/
theorem generated_entities (hb : s.generateBatch.errors = []) :
    List.Forall₂ (fun e g => e.generate = .ok g) s.entities s.generateBatch.entities := by
  have hfilter : s.generateBatch.entities =
      s.entities.filterMap fun e => e.generate.toOption := by
    rw [entities_generateBatch, entities, List.filterMap_append, List.filterMap_append,
      List.filterMap_map, List.filterMap_map, List.filterMap_map]
    rfl
  have hall : ∀ e ∈ s.entities, ∃ g, e.generate = .ok g := fun e he => exists_generate hb he
  rw [hfilter]
  generalize s.entities = es at hall ⊢
  induction es with
  | nil => exact .nil
  | cons e es ih =>
    obtain ⟨⟨g, hg⟩, hes⟩ := List.forall_mem_cons.1 hall
    simp only [List.filterMap_cons, toOption_eq_some.2 hg]
    exact .cons hg (ih hes)

theorem generate_mem (hb : s.generateBatch.errors = []) (he : e ∈ s.entities) :
    ∃ g ∈ s.generateBatch.entities, e.generate = .ok g := by
  obtain ⟨i, hi, rfl⟩ := List.mem_iff_getElem.1 he
  have hall := generated_entities hb
  exact ⟨_, List.getElem_mem (hall.length_eq ▸ hi), hall.get hi (hall.length_eq ▸ hi)⟩

theorem exists_of_generated (hb : s.generateBatch.errors = [])
    (hg : g ∈ s.generateBatch.entities) : ∃ e ∈ s.entities, e.generate = .ok g := by
  obtain ⟨i, hi, rfl⟩ := List.mem_iff_getElem.1 hg
  have hall := generated_entities hb
  exact ⟨_, List.getElem_mem (hall.length_eq ▸ hi), hall.get (hall.length_eq ▸ hi) hi⟩

/-- What can be spelled of a valid schema. -/
theorem spellable (hv : hasErrors s.validate = false) (he : e ∈ s.entities)
    (hf : ∀ c ∈ e.columns, c.CallsFunction) : e.Spellable := by
  cases e with
  | enum e => exact trivial
  | helper h => exact hf
  | table t =>
    exact ⟨hf, fun key hk c hc => isIdentifier_of_mem_key hv (mem_entities_table.1 he) hk hc⟩

/-- The generated entities provide what the entities do. -/
theorem provides_generated (hb : s.generateBatch.errors = []) :
    s.generateBatch.entities.map GeneratedEntity.provides = s.entities.map Entity.provides := by
  have hall := generated_entities hb
  generalize s.entities = es at hall
  generalize s.generateBatch.entities = gs at hall
  induction hall with
  | nil => rfl
  | cons hg _ ih => rw [List.map_cons, List.map_cons, ih, Entity.provides_generate hg]

end Schema

end SchemaLoom
