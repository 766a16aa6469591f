/-
  Generated modules are closed.

  In a valid schema whose entities can all be written, what a declaration uses
  is imported by its module or is the variable of the table itself; there is a
  line for each import, and each line that imports leads to the module that
  exports what it names (`GeneratedEntity.Closed`).  In the one module that holds
  every entity, enums and helpers are declared before they are used, and every
  table that is used is declared (`DeclaredIn`).

  The call of a default is written as it is.  If it is the name of a function,
  the texts use no names but these; if it holds code, that code may use others
  (`Schema.unbound_memos`).

  * `Schema.closed_generated`, `Schema.declared_singleModule`,
    `Schema.usesBound_singleModule`;
  * `Schema.modules_closed`: all of it together.
-/
import SchemaLoom.Proofs.Module.Bindings

namespace SchemaLoom

open Source

/-! ## Import lines -/

/-- A path in a module in the directory of `location` leads to the module
    `stem` in the directory of a kind. -/
inductive Leads (location : EntityKind) : String → EntityKind → String → Prop
  | within (stem : String) : Leads location ("./" ++ stem ++ ".js") location stem
  | across (kind : EntityKind) (stem : String) :
      Leads location ("../" ++ kind.directory ++ "/" ++ stem ++ ".js") kind stem

theorem leads_siblingPath (location kind : EntityKind) (stem : String) :
    Leads location (siblingPath location kind stem) kind stem := by
  rw [siblingPath]
  split
  next h =>
    subst h
    exact .within stem
  · exact .across kind stem

/-- The declaration exports a constant of this name. -/
def GeneratedEntity.Exports (g : GeneratedEntity) (name : String) : Prop :=
  ∃ value, g.declaration = "export const " ++ name ++ " = " ++ value

/-- The line brings an import into a module in the directory of `location`: from
    its library, or from the module that exports it, from where this lies. -/
inductive Brings (location : EntityKind) (modules : List GeneratedEntity) :
    String → Import → Prop
  | pgCore {name : String} {names : List String} (h : name ∈ names) :
      Brings location modules (importLine (", ".intercalate names) pgCoreModule) (.pgCore name)
  | sql : Brings location modules (importLine "sql" sqlModule) .sql
  | entity {m : GeneratedEntity} {path : String} (hm : m ∈ modules)
      (hp : Leads location path m.kind m.name) (hx : m.Exports m.provides.name) :
      Brings location modules (importLine m.provides.name path) m.provides

namespace ImportSet

variable {s : ImportSet}

theorem mem_pgCoreNames {name : String} : name ∈ s.pgCoreNames ↔ .pgCore name ∈ s.items := by
  rw [pgCoreNames, List.mem_filterMap]
  constructor
  · rintro ⟨i, hi, he⟩
    cases i <;> cases he
    exact hi
  · exact fun h => ⟨_, h, rfl⟩

theorem mem_libraryStatements {statement : ImportStatement} : statement ∈ s.libraryStatements ↔
    s.pgCoreNames ≠ [] ∧ statement = ⟨s.pgCoreNames, pgCoreModule⟩ ∨
      .sql ∈ s.items ∧ statement = ⟨["sql"], sqlModule⟩ := by
  rw [libraryStatements, List.mem_append, List.mem_ite_nil_left, List.mem_ite_nil_right,
    List.mem_singleton, List.mem_singleton, List.isEmpty_iff, contains, List.contains_iff_mem]

theorem mem_statements {location : EntityKind} {tables : List TableDef}
    {statement : ImportStatement} :
    statement ∈ s.statements ((ImportScope.within location).withTables tables) ↔
      statement ∈ s.libraryStatements ∨ ∃ i ∈ s.items,
        entityStatement? ((ImportScope.within location).withTables tables) location i =
          some statement := by
  rw [statements, List.mem_append]
  exact or_congr_right List.mem_filterMap

/-- Each import has a line that brings it, and each line brings an import, if the
    statements of entities do. -/
theorem brings_lines {location : EntityKind} {tables : List TableDef}
    {modules : List GeneratedEntity}
    (h : ∀ i ∈ s.items, ∀ statement,
      entityStatement? ((ImportScope.within location).withTables tables) location i =
        some statement → Brings location modules statement.line i) :
    (∀ i ∈ s.items, ∃ line ∈ s.lines ((ImportScope.within location).withTables tables),
      Brings location modules line i) ∧
    ∀ line ∈ s.lines ((ImportScope.within location).withTables tables), ∃ i ∈ s.items,
      Brings location modules line i := by
  have hsql : Brings location modules (⟨["sql"], sqlModule⟩ : ImportStatement).line .sql := by
    have hline : (⟨["sql"], sqlModule⟩ : ImportStatement).line = importLine "sql" sqlModule := by
      simp [ImportStatement.line]
    rw [hline]
    exact .sql
  rw [lines_eq]
  constructor
  · intro i hi
    have hbrings : ∃ statement ∈ s.statements ((ImportScope.within location).withTables tables),
        Brings location modules statement.line i := by
      cases he : entityStatement? ((ImportScope.within location).withTables tables) location i with
      | some statement =>
        exact ⟨statement, mem_statements.2 (.inr ⟨i, hi, he⟩), h i hi statement he⟩
      | none =>
        cases i with
        | pgCore name =>
          have hn := mem_pgCoreNames.2 hi
          refine ⟨_, mem_statements.2 (.inl (mem_libraryStatements.2 (.inl ⟨?_, rfl⟩))), .pgCore hn⟩
          exact List.ne_nil_of_mem hn
        | sql =>
          exact ⟨_, mem_statements.2 (.inl (mem_libraryStatements.2 (.inr ⟨hi, rfl⟩))), hsql⟩
        | enum | helper | table => cases he
    obtain ⟨statement, hs, hb⟩ := hbrings
    exact ⟨_, List.mem_map_of_mem hs, hb⟩
  · intro line hl
    obtain ⟨statement, hs, rfl⟩ := List.mem_map.1 hl
    rcases mem_statements.1 hs with hs | ⟨i, hi, he⟩
    · rcases mem_libraryStatements.1 hs with ⟨hne, rfl⟩ | ⟨hi, rfl⟩
      · obtain ⟨name, hn⟩ := List.exists_mem_of_ne_nil _ hne
        exact ⟨.pgCore name, mem_pgCoreNames.1 hn, .pgCore hn⟩
      · exact ⟨.sql, hi, hsql⟩
    · exact ⟨i, hi, h i hi statement he⟩

end ImportSet

/-! ## Modules -/

/-- The text uses no names but those that it binds. -/
def UsesBound (text : String) : Prop :=
  ∃ ts, HasTokens text.toList ts ∧ ∀ name ∈ usedNames ts, name ∈ boundNames ts

/-- The module of an entity, among those of the schema, is closed. -/
structure GeneratedEntity.Closed (s : Schema) (e : Entity) (g : GeneratedEntity) : Prop where
  /-- What the declaration uses is imported, or is its own table. -/
  uses : ∀ i ∈ e.uses,
    i ∈ g.imports.items ∨ g.kind = .table ∧ i = .table (tableVariable g.name)
  /-- The text of the declaration binds one name, and uses these. -/
  names : (∀ c ∈ e.columns, c.CallsFunction) → ∃ ts, HasTokens g.declaration.toList ts ∧
    boundNames ts = [g.provides.name] ∧ usedNames ts = e.uses.map Import.name
  /-- Each import has a line that brings it. -/
  imported : ∀ i ∈ g.imports.items,
    ∃ line ∈ g.imports.lines ((ImportScope.within g.kind).withTables s.tables),
      Brings g.kind s.generateBatch.entities line i
  /-- Each line brings an import. -/
  lines : ∀ line ∈ g.imports.lines ((ImportScope.within g.kind).withTables s.tables),
    ∃ i ∈ g.imports.items, Brings g.kind s.generateBatch.entities line i
  /-- The text of the module uses no names but those that it binds. -/
  module : (∀ c ∈ e.columns, c.CallsFunction) →
    UsesBound (g.render ((ImportScope.within g.kind).withTables s.tables))

namespace Schema

variable {s : Schema} {e : Entity} {g : GeneratedEntity}

/-- The import statement of an entity that is there brings it. -/
theorem brings_of_statement (hb : s.generateBatch.errors = []) {location : EntityKind} {d : Entity}
    (hd : d ∈ s.entities) {statement : ImportStatement}
    (hs : ImportSet.entityStatement? ((ImportScope.within location).withTables s.tables) location
      d.provides = some statement) :
    Brings location s.generateBatch.entities statement.line d.provides := by
  have hmodule : ∀ (d : Entity) (path : String), d ∈ s.entities →
      Leads location path d.ref.kind d.ref.name → Brings location s.generateBatch.entities
        (importLine d.provides.name path) d.provides := by
    intro d path hd hp
    obtain ⟨m, hm, hg⟩ := generate_mem hb hd
    rw [← Entity.ref_generate hg] at hp
    rw [← Entity.provides_generate hg]
    refine .entity hm hp ?_
    rw [Entity.provides_generate hg]
    exact Entity.exists_declaration hg
  have hline : ∀ name path, (⟨[name], path⟩ : ImportStatement).line = importLine name path :=
    fun name path => by simp [ImportStatement.line]
  cases d with
  | enum e =>
    rw [Entity.provides, ImportSet.entityStatement?, Option.some.injEq] at hs
    rw [← hs, hline]
    exact hmodule (.enum e) _ hd (leads_siblingPath location .enum e.name)
  | helper h =>
    rw [Entity.provides, ImportSet.entityStatement?, Option.some.injEq] at hs
    rw [← hs, hline]
    exact hmodule (.helper h) _ hd (leads_siblingPath location .helper h.name)
  | table t =>
    have hscope : (ImportScope.within location).tableNames = [] := rfl
    obtain ⟨u, hu, hb, hm⟩ := ImportScope.exists_tableModule hscope (mem_entities_table.1 hd)
    rw [Entity.provides, ImportSet.entityStatement?, Option.some.injEq, hm, ← hb] at hs
    rw [← hs, hline, Entity.provides, ← hb]
    exact hmodule (.table u) _ (mem_entities_table.2 hu)
      (leads_siblingPath location .table u.name)

/-- What an entity uses is bound in its module. -/
theorem mem_bindings_of_uses {i : Import} (hg : e.generate = .ok g) (hi : i ∈ e.uses) :
    i ∈ g.bindings := by
  rw [GeneratedEntity.bindings, List.mem_append, List.mem_singleton, Entity.provides_generate hg,
    Entity.mem_imports hg]
  by_cases hp : i = e.provides
  · exact .inr hp
  · exact .inl ⟨hi, hp⟩

/-- **Each generated module is closed.** -/
theorem closed_generated (hv : hasErrors s.validate = false) (hb : s.generateBatch.errors = [])
    (he : e ∈ s.entities) (hg : e.generate = .ok g) : g.Closed s e := by
  have hbrings : ∀ i ∈ g.imports.items, ∀ statement,
      ImportSet.entityStatement? ((ImportScope.within g.kind).withTables s.tables) g.kind i =
        some statement → Brings g.kind s.generateBatch.entities statement.line i := by
    intro i hi statement hs
    have hk : i.kind?.isSome := by
      cases i <;> first | rfl | cases hs
    obtain ⟨d, hd, rfl⟩ := exists_provider hv he ((Entity.mem_imports hg).1 hi).1 hk
    exact brings_of_statement hb hd hs
  obtain ⟨himported, hlines⟩ := ImportSet.brings_lines hbrings
  refine ⟨fun i hi => ?_, fun hf => ?_, himported, hlines, fun hf => ?_⟩
  · refine (List.mem_append.1 (mem_bindings_of_uses hg hi)).imp_right fun hp => ?_
    rw [List.mem_singleton, Entity.provides_generate hg] at hp
    subst hp
    obtain ⟨hk, hn⟩ := EntityRef.mk.inj (Entity.ref_generate hg)
    rw [hk, hn]
    cases e with
    | enum e => exact absurd (Entity.rank_lt_of_mem_uses hi (.inl rfl)) (Nat.lt_irrefl _)
    | helper h => exact absurd (Entity.rank_lt_of_mem_uses hi (.inr rfl)) (Nat.lt_irrefl _)
    | table t => exact ⟨rfl, rfl⟩
  · have hd := Entity.closed_declaration hg (spellable hv he hf)
    have hm := e.mentions_tokens.eq
    refine ⟨e.tokens, hd.hasTokens, ?_, ?_⟩
    · rw [boundNames, hm, bound?_declaration, Entity.provides_generate hg]
    · rw [usedNames, hm, used?_declaration]
  · obtain ⟨ts, ht, hbound, hused⟩ := Entity.names_render hg (spellable hv he hf)
    refine ⟨ts, ht, fun name hn => hbound.mem_iff.2 ?_⟩
    rw [hused] at hn
    obtain ⟨i, hi, rfl⟩ := List.mem_map.1 hn
    exact List.mem_map_of_mem (mem_bindings_of_uses hg hi)

end Schema

/-! ## The one module of all entities -/

/-- The text holds a part. -/
def HasPart (text part : String) : Prop := ∃ before after, text = before ++ part ++ after

/-- What an entity uses is declared in the one module of all entities: enums and
    helpers before its own declaration. -/
def DeclaredIn (modules : List GeneratedEntity) (e : Entity) (g : GeneratedEntity) : Prop :=
  ∃ before after head tail, modules = before ++ g :: after ∧
    singleModule modules = head ++ g.declaration ++ tail ∧
    (∀ m ∈ before, HasPart head m.declaration) ∧
    (∀ m ∈ modules, HasPart (singleModule modules) m.declaration) ∧
    ∀ i ∈ e.uses,
      (i.kind? = some .enum ∨ i.kind? = some .helper →
        ∃ m ∈ before, m.provides = i ∧ m.Exports i.name) ∧
      (i.kind? = some .table → ∃ m ∈ modules, m.provides = i ∧ m.Exports i.name)

/-- A text in the middle of some that are joined. -/
theorem exists_intercalate_append (sep : String) (xs ys : List String) (x : String) :
    ∃ head tail, sep.intercalate (xs ++ x :: ys) = head ++ x ++ tail ∧
      ∀ y ∈ xs, HasPart head y := by
  induction xs with
  | nil =>
    cases ys with
    | nil => exact ⟨"", "", by simp, nofun⟩
    | cons y ys =>
      exact ⟨"", sep ++ sep.intercalate (y :: ys), by simp [String.append_assoc], nofun⟩
  | cons z zs ih =>
    obtain ⟨head, tail, ht, hh⟩ := ih
    refine ⟨z ++ sep ++ head, tail, ?_, List.forall_mem_cons.2 ⟨?_, fun y hy => ?_⟩⟩
    · obtain ⟨l, ls, hl⟩ : ∃ l ls, zs ++ x :: ys = l :: ls := by cases zs <;> simp
      rw [List.cons_append, hl, String.intercalate_cons_cons, ← hl, ht]
      simp only [String.append_assoc]
    · exact ⟨"", sep ++ head, by simp [String.append_assoc]⟩
    · obtain ⟨b, a, rfl⟩ := hh y hy
      exact ⟨z ++ sep ++ b, a, by simp only [String.append_assoc]⟩

theorem exists_singleModule (modules : List GeneratedEntity) :
    ∃ head, singleModule modules = head ++ declarationsText modules ++ "\n" := by
  rw [singleModule]
  split
  · exact ⟨"", by simp⟩
  · exact ⟨_, rfl⟩

/-- Where a declaration is in the one module. -/
theorem exists_singleModule_append (before after : List GeneratedEntity) (g : GeneratedEntity) :
    ∃ head tail, singleModule (before ++ g :: after) = head ++ g.declaration ++ tail ∧
      ∀ m ∈ before, HasPart head m.declaration := by
  obtain ⟨start, hs⟩ := exists_singleModule (before ++ g :: after)
  obtain ⟨head, tail, ht, hh⟩ := exists_intercalate_append "\n\n"
    (before.map GeneratedEntity.declaration) (after.map GeneratedEntity.declaration) g.declaration
  rw [hs, declarationsText, List.map_append, List.map_cons, ht]
  refine ⟨start ++ head, tail ++ "\n", by simp only [String.append_assoc], fun m hm => ?_⟩
  obtain ⟨b, a, hb⟩ := hh _ (List.mem_map_of_mem hm)
  exact ⟨start ++ b, a, by rw [hb]; simp only [String.append_assoc]⟩

theorem hasPart_singleModule {modules : List GeneratedEntity} {m : GeneratedEntity}
    (hm : m ∈ modules) : HasPart (singleModule modules) m.declaration := by
  obtain ⟨before, after, rfl⟩ := List.append_of_mem hm
  obtain ⟨head, tail, ht, -⟩ := exists_singleModule_append before after m
  exact ⟨head, tail, ht⟩

namespace Schema

variable {s : Schema} {e : Entity} {g : GeneratedEntity}

/-- The generated entities are in the order of their kinds. -/
theorem pairwise_generated (hb : s.generateBatch.errors = []) :
    s.generateBatch.entities.Pairwise fun m g => m.provides.rank ≤ g.provides.rank := by
  have hsorted := s.pairwise_entities
  rw [← List.pairwise_map (f := Entity.provides) (R := fun i j => i.rank ≤ j.rank),
    ← provides_generated hb, List.pairwise_map] at hsorted
  exact hsorted

/-- **What an entity uses is declared in the one module of all entities.** -/
theorem declared_singleModule (hv : hasErrors s.validate = false)
    (hb : s.generateBatch.errors = []) (he : e ∈ s.entities) (hg : e.generate = .ok g)
    (hm : g ∈ s.generateBatch.entities) : DeclaredIn s.generateBatch.entities e g := by
  have hprovider : ∀ i ∈ e.uses, i.kind?.isSome →
      ∃ m ∈ s.generateBatch.entities, m.provides = i ∧ m.Exports i.name := by
    intro i hi hk
    obtain ⟨d, hd, rfl⟩ := exists_provider hv he hi hk
    obtain ⟨m, hm, hg⟩ := generate_mem hb hd
    exact ⟨m, hm, Entity.provides_generate hg, Entity.exists_declaration hg⟩
  obtain ⟨before, after, hs⟩ := List.append_of_mem hm
  obtain ⟨head, tail, ht, hh⟩ := exists_singleModule_append before after g
  refine ⟨before, after, head, tail, hs, hs ▸ ht, hh, fun m => hasPart_singleModule,
    fun i hi => ⟨fun hk => ?_, fun hk => hprovider i hi (by rw [hk]; rfl)⟩⟩
  obtain ⟨m, hm, hp, hx⟩ := hprovider i hi (by rcases hk with hk | hk <;> rw [hk] <;> rfl)
  refine ⟨m, ?_, hp, hx⟩
  -- what is not before the entity is of no earlier kind
  have hlt := Entity.rank_lt_of_mem_uses hi hk
  have hsorted := pairwise_generated hb
  rw [hs] at hm hsorted
  refine (List.mem_append.1 hm).resolve_right fun hm => ?_
  have hle : g.provides.rank ≤ m.provides.rank := by
    rcases List.mem_cons.1 hm with rfl | hm
    · exact Nat.le_refl _
    · exact List.rel_of_pairwise_cons (List.pairwise_append.1 hsorted).2.1 hm
  rw [Entity.provides_generate hg, hp] at hle
  exact absurd hlt (Nat.not_lt.2 hle)

/-- What the modules import from libraries, the one module of all entities does. -/
theorem mem_singleBindings {modules : List GeneratedEntity} {i : Import} (hg : g ∈ modules)
    (hi : i ∈ g.imports.items) (hk : i.kind? = none) : i ∈ singleBindings modules := by
  refine List.mem_append_left _ (List.mem_filter.2 ⟨?_, by rw [hk]; rfl⟩)
  exact ImportSet.mem_foldl_union.2 (.inr ⟨g, hg, hi⟩)

/-- **The one module of all entities uses no names but those that it binds.** -/
theorem usesBound_singleModule (hv : hasErrors s.validate = false)
    (hb : s.generateBatch.errors = []) (hf : ∀ c ∈ s.columns, c.CallsFunction) :
    UsesBound (singleModule s.generateBatch.entities) := by
  obtain ⟨ts, ht, hbound, hused⟩ := names_singleModule hv hb hf
  refine ⟨ts, ht, fun name hn => hbound.mem_iff.2 ?_⟩
  rw [hused] at hn
  obtain ⟨e, he, hn⟩ := List.mem_flatMap.1 hn
  obtain ⟨i, hi, rfl⟩ := List.mem_map.1 hn
  refine List.mem_map_of_mem ?_
  cases hk : i.kind? with
  | some kind =>
    obtain ⟨d, hd, rfl⟩ := exists_provider hv he hi (by rw [hk]; rfl)
    rw [singleBindings, provides_generated hb]
    exact List.mem_append_right _ (List.mem_map_of_mem hd)
  | none =>
    obtain ⟨g, hm, hg⟩ := generate_mem hb he
    refine mem_singleBindings hm ((Entity.mem_imports hg).2 ⟨hi, ?_⟩) hk
    rintro rfl
    rw [e.kind?_provides] at hk
    cases hk

/-- **Generated modules are closed**, and so is the one module of all entities. -/
theorem modules_closed (s : Schema) (hv : hasErrors s.validate = false)
    (hb : s.generateBatch.errors = []) :
    List.Forall₂ (fun e g => e.generate = .ok g ∧ g.Closed s e ∧
      DeclaredIn s.generateBatch.entities e g) s.entities s.generateBatch.entities ∧
    ((∀ c ∈ s.columns, c.CallsFunction) →
      UsesBound (singleModule s.generateBatch.entities)) := by
  have hall := generated_entities hb
  refine ⟨List.forall₂_iff_zip.2 ⟨hall.length_eq, fun {e g} h => ?_⟩,
    usesBound_singleModule hv hb⟩
  obtain ⟨he, hm⟩ := List.of_mem_zip h
  have hg := List.forall₂_zip hall h
  exact ⟨hg, closed_generated hv hb he hg, declared_singleModule hv hb he hg hm⟩

/-- Visits refer to members by another spelling of the name of their table. -/
def clubSchema : Schema where
  outputDir := "db"
  enums := [⟨"Role", ["admin", "team_lead"]⟩]
  helpers := [⟨"Timestamps", [.withDefault (.ofType "created" .date) (.call "now")]⟩]
  tables := [
    membersTable,
    { name := "visits"
      columns := [.withReference (.ofType "member" .number) "MEMBERS" "id"]
      helperReferences := ["Timestamps"] }]

theorem modules_closed_club :
    hasErrors clubSchema.validate = false ∧ clubSchema.generateBatch.errors = [] ∧
    List.Forall₂ (fun e g => e.generate = .ok g ∧ g.Closed clubSchema e ∧
      DeclaredIn clubSchema.generateBatch.entities e g)
      clubSchema.entities clubSchema.generateBatch.entities ∧
    (∀ c ∈ clubSchema.columns, c.CallsFunction) ∧
    UsesBound (singleModule clubSchema.generateBatch.entities) := by
  have hv : hasErrors clubSchema.validate = false := by decide +kernel
  have hb : clubSchema.generateBatch.errors = [] := by decide +kernel
  have hf : ∀ c ∈ clubSchema.columns, c.CallsFunction := by
    have hcalls : ∀ c ∈ clubSchema.columns, ∀ d ∈ c.options.default, ∀ f,
        d = .call f → f = "now" := by
      simp [clubSchema, membersTable, columns, Column.withDefault, Column.ofType,
        Column.withReference]
    intro c hc f hd
    rw [hcalls c hc (.call f) hd f rfl]
    decide
  obtain ⟨hclosed, hsingle⟩ := clubSchema.modules_closed hv hb
  exact ⟨hv, hb, hclosed, hf, hsingle hf⟩

/-- The default of a memo is a call whose text ends the template, and declares a
    column of the enum `ghost`. -/
def memosSchema : Schema where
  outputDir := "db"
  tables := [
    { name := "memos"
      columns := [.withDefault (.ofType "note" .text)
        (.call "now()\x60),\n  other: ghost('other').default(sql\x60now")] }]

/-- What the module of the memos looks like: that of a table with both columns. -/
def hauntedTable : TableDef where
  name := "memos"
  columns := [.withDefault (.ofType "note" .text) (.call "now"),
    .withDefault (.ofEnum "other" "ghost") (.call "now")]

/-- **A call that is not the name of a function may use what is not imported.** -/
theorem unbound_memos :
    hasErrors memosSchema.validate = false ∧ memosSchema.generateBatch.errors = [] ∧
    ∃ g ∈ memosSchema.generateBatch.entities, ∃ ts, HasTokens g.declaration.toList ts ∧
      "ghost" ∈ usedNames ts ∧ "ghost" ∉ g.bindings.map Import.name := by
  have hv : hasErrors memosSchema.validate = false := by decide +kernel
  have hb : memosSchema.generateBatch.errors = [] := by decide +kernel
  have hsame : ∃ g ∈ memosSchema.generateBatch.entities, ∃ g', hauntedTable.generate = .ok g' ∧
      g.declaration = g'.declaration ∧ "ghost" ∉ g.bindings.map Import.name :=
    ⟨_, List.mem_singleton.2 rfl, _, rfl, by decide +kernel, by decide +kernel⟩
  obtain ⟨g, hg, g', hg', hd, hghost⟩ := hsame
  have hs : hauntedTable.Spellable := by
    refine ⟨fun c hc => ?_, nofun⟩
    simp only [hauntedTable, List.mem_cons, List.not_mem_nil, or_false] at hc
    rcases hc with rfl | rfl <;>
    · intro f hf
      cases hf
      decide
  have htext := (Entity.closed_declaration (e := .table hauntedTable) hg' hs).hasTokens
  rw [← hd] at htext
  have huses : .enum "ghost" ∈ hauntedTable.uses := by
    rw [TableDef.uses, TableDef.uses_members, List.mem_cons, List.mem_append, List.mem_append]
    refine .inr (.inl (.inl (List.mem_flatMap.2
      ⟨.withDefault (.ofEnum "other" "ghost") (.call "now"), by simp [hauntedTable], ?_⟩)))
    have hk : (Column.withDefault (.ofEnum "other" "ghost") (.call "now")).kind =
        .ok (.enumeration "ghost") := rfl
    rw [Column.uses_eq hk]
    exact List.mem_cons_self
  refine ⟨hv, hb, g, hg, _, htext, ?_, hghost⟩
  rw [usedNames, (Entity.mentions_tokens _).eq, used?_declaration]
  exact List.mem_map_of_mem huses

end Schema

end SchemaLoom
