/-
  The names that generated modules bind.

  A module binds what it imports and the name of its entity; the one module of
  all entities binds what it imports from libraries and the names of all.  No
  two of these are of one kind and name, so that a name is bound twice exactly
  if two kinds share it (`Clash`), which no rule of the validation excludes.

  * `Entity.names_render`, `Schema.names_singleModule`: the names that the texts
    bind and use;
  * `Schema.modules_bind`: when none is bound twice.
-/
import SchemaLoom.Proofs.Module.Scope

namespace SchemaLoom

open Source

/-! ## Import statements -/

namespace ImportStatement

theorem listedNames_intercalate (names : List String) (rest : List Token) :
    listedNames ([Token.comma].intercalate (names.map fun name => [.identifier name]) ++
      .rightBrace :: rest) = names := by
  induction names with
  | nil => simp [listedNames]
  | cons name names ih =>
    cases names with
    | nil => simp [listedNames]
    | cons other names =>
      rw [List.map_cons, List.map_cons, List.intercalate_cons_cons]
      exact congrArg (List.cons name) ih

/-- An import statement binds its names. -/
theorem mentions_tokens (i : ImportStatement) :
    Mentions (importTokens [i.tokens]) (i.names.map .binding) := by
  intro us
  have hname : ∀ name ∈ i.names, MentionsParted [.identifier name] [] := by
    intro name _ us hus
    exact congrArg (· ++ mentions us) (hus name)
  have hlist := MentionsParted.intercalate hname
  rw [List.flatMap_eq_nil_iff.2 fun _ _ => rfl] at hlist
  have hat : mentionsAt "import" (i.tokens ++ (.semicolon :: us)) = i.names.map .binding := by
    simp only [tokens, List.cons_append, List.append_assoc, mentionsAt, if_pos,
      listedNames_intercalate]
  have hrest : mentions (i.tokens ++ (.semicolon :: us)) = mentions us := by
    simp only [tokens, List.cons_append, List.append_assoc]
    exact hlist _ fun _ => rfl
  simp only [importTokens, List.flatMap_cons, List.flatMap_nil, List.append_nil, List.cons_append,
    List.append_assoc, List.nil_append]
  exact congrArg₂ (· ++ ·) hat hrest

theorem mentions_lines (is : List ImportStatement) :
    Mentions (importTokens (is.map tokens)) ((is.flatMap names).map .binding) := by
  have htokens : importTokens (is.map tokens) = is.flatMap fun i => importTokens [i.tokens] := by
    simp [importTokens, List.flatMap_map]
  rw [htokens, List.map_flatMap]
  exact .flatMap fun i _ => i.mentions_tokens

end ImportStatement

/-! ## Imports -/

namespace ImportSet

variable {s : ImportSet}

theorem nodup_items (s : ImportSet) : s.items.Nodup := by
  refine s.ordered.imp fun h => ?_
  rintro rfl
  rcases h with h | ⟨-, h⟩
  · exact Nat.lt_irrefl _ h
  · exact String.lt_irrefl _ h

/-- What the import lines of a set bind in some scope. -/
def bindings (s : ImportSet) (scope : ImportScope) : List Import :=
  match scope.location with
  | none => s.items.filter fun i => i.kind?.isNone
  | some _ => s.items

/-- The names of library imports: those of the column library, and the tag. -/
theorem perm_libraryNames {items : List Import} (h : items.Nodup) :
    ((items.filterMap fun
        | .pgCore name => some name
        | _ => none) ++ if .sql ∈ items then ["sql"] else []).Perm
      ((items.filter fun i => i.kind?.isNone).map Import.name) := by
  induction items with
  | nil => exact .nil
  | cons i items ih =>
    obtain ⟨hi, hnodup⟩ := List.nodup_cons.1 h
    have ih := ih hnodup
    cases i with
    | pgCore name =>
      simp only [List.mem_cons, reduceCtorEq, false_or]
      exact ih.cons name
    | sql =>
      rw [if_neg hi, List.append_nil] at ih
      rw [if_pos List.mem_cons_self]
      exact (List.perm_append_singleton "sql" _).trans (ih.cons "sql")
    | enum name =>
      simp only [List.mem_cons, reduceCtorEq, false_or]
      exact ih
    | helper name =>
      simp only [List.mem_cons, reduceCtorEq, false_or]
      exact ih
    | table binding =>
      simp only [List.mem_cons, reduceCtorEq, false_or]
      exact ih

theorem names_libraryStatements (s : ImportSet) :
    (s.libraryStatements.flatMap ImportStatement.names).Perm
      ((s.items.filter fun i => i.kind?.isNone).map Import.name) := by
  have hnames : s.libraryStatements.flatMap ImportStatement.names =
      s.pgCoreNames ++ if .sql ∈ s.items then ["sql"] else [] := by
    rw [libraryStatements, List.flatMap_append]
    congr 1
    · split
      next h => rw [List.isEmpty_iff.1 h, List.flatMap_nil]
      · simp
    · simp only [contains, List.contains_iff_mem]
      split <;> rfl
  rw [hnames]
  exact perm_libraryNames s.nodup_items

theorem names_entityStatements (items : List Import) (scope : ImportScope) (location : EntityKind) :
    (items.filterMap (entityStatement? scope location)).flatMap ImportStatement.names =
      (items.filter fun i => i.kind?.isSome).map Import.name := by
  induction items with
  | nil => rfl
  | cons i items ih =>
    cases i with
    | pgCore name => exact ih
    | sql => exact ih
    | enum name => exact congrArg (List.cons name) ih
    | helper name => exact congrArg (List.cons name) ih
    | table binding => exact congrArg (List.cons binding) ih

/-- The import lines bind the names of the imports. -/
theorem names_statements (s : ImportSet) (scope : ImportScope) :
    ((s.statements scope).flatMap ImportStatement.names).Perm
      ((s.bindings scope).map Import.name) := by
  rw [statements, bindings, List.flatMap_append]
  cases scope.location with
  | none => simpa using s.names_libraryStatements
  | some location =>
    refine (s.names_libraryStatements.append_right _).trans ?_
    change List.Perm (_ ++ (s.items.filterMap (entityStatement? scope location)).flatMap _) _
    rw [names_entityStatements, ← List.map_append]
    refine .map _ ?_
    have hsplit : s.items.filter (fun i => i.kind?.isSome) =
        s.items.filter fun i => !i.kind?.isNone := by simp
    rw [hsplit]
    exact List.filter_append_perm _ _

end ImportSet

/-! ## Clashes -/

/-- Two of the names that are bound are names of different kinds. -/
def Clash (bindings : List Import) : Prop :=
  ∃ a ∈ bindings, ∃ b ∈ bindings, a.name = b.name ∧ a.rank ≠ b.rank

instance : DecidablePred Clash := fun _ => inferInstanceAs (Decidable (∃ _ ∈ _, ∃ _ ∈ _, _))

theorem nodup_names_iff {bindings : List Import} (h : bindings.Nodup) :
    (bindings.map Import.name).Nodup ↔ ¬Clash bindings := by
  constructor
  · rintro hn ⟨a, ha, b, hb, he, hr⟩
    exact hr (congrArg _ (List.inj_on_of_nodup_map hn ha hb he))
  · intro hc
    refine h.map_on fun a ha b hb he => Import.eq_of_rank_name ?_ he
    exact Classical.byContradiction fun hr => hc ⟨a, ha, b, hb, he, hr⟩

/-- What a text binds, if it can be spelled: no name twice, unless two kinds
    share it. -/
structure Binds (text : String) (spellable : Prop) (bindings : List Import) : Prop where
  tokens : spellable → ∃ ts, HasTokens text.toList ts ∧
    (boundNames ts).Perm (bindings.map Import.name)
  nodup : (bindings.map Import.name).Nodup ↔ ¬Clash bindings

/-! ## Modules -/

/-- What the module of a generated entity binds. -/
def GeneratedEntity.bindings (g : GeneratedEntity) : List Import := g.imports.items ++ [g.provides]

/-- What the one module of all entities binds. -/
def singleBindings (modules : List GeneratedEntity) : List Import :=
  (consolidatedImports modules).items.filter (fun i => i.kind?.isNone) ++
    modules.map GeneratedEntity.provides

namespace Entity

variable {e : Entity} {g : GeneratedEntity}

theorem nodup_bindings (h : e.generate = .ok g) : g.bindings.Nodup := by
  rw [GeneratedEntity.bindings, List.nodup_append, provides_generate h]
  refine ⟨g.imports.nodup_items, List.nodup_singleton _, fun i hi j hj => ?_⟩
  rw [List.mem_singleton.1 hj]
  exact ((mem_imports h).1 hi).2

/-- **The names that a module binds and uses.** -/
theorem names_render (h : e.generate = .ok g) (hs : e.Spellable) {kind : EntityKind}
    {tables : List TableDef} : ∃ ts,
      HasTokens (g.render ((ImportScope.within kind).withTables tables)).toList ts ∧
        (boundNames ts).Perm (g.bindings.map Import.name) ∧
        usedNames ts = e.uses.map Import.name := by
  have hm := (ImportStatement.mentions_lines (g.imports.statements
    ((ImportScope.within kind).withTables tables))).append e.mentions_tokens
  refine ⟨_, (spells_module (named_imports h) (closed_declaration h hs) _).hasTokens, ?_, ?_⟩
  · rw [boundNames, hm.eq, List.filterMap_append, bound?_bindings, bound?_declaration,
      GeneratedEntity.bindings, List.map_append, provides_generate h]
    exact (g.imports.names_statements _).append_right _
  · rw [usedNames, hm.eq, List.filterMap_append, used?_bindings, used?_declaration,
      List.nil_append]

end Entity

/-! ## The one module of all entities -/

theorem filter_items_foldl_erase (modules : List GeneratedEntity) (s : ImportSet) :
    (modules.foldl (fun s g => s.erase g.provides) s).items.filter (fun i => i.kind?.isNone) =
      s.items.filter fun i => i.kind?.isNone := by
  induction modules generalizing s with
  | nil => rfl
  | cons g modules ih =>
    rw [List.foldl_cons, ih, ImportSet.erase, List.filter_filter]
    refine List.filter_congr fun i _ => ?_
    cases hk : i.kind? with
    | some kind => rfl
    | none =>
      have hne : i ≠ g.provides := by
        rintro rfl
        rw [GeneratedEntity.provides] at hk
        split at hk <;> cases hk
      simpa using hne

namespace Schema

variable {s : Schema}

/-- No two entities of a valid schema provide the same. -/
theorem nodup_provides (hv : hasErrors s.validate = false) :
    (s.entities.map Entity.provides).Nodup := by
  have henums : ((s.enums.map EnumDef.name).map Import.enum).Nodup :=
    (nodup_namesOf hv .enum).map fun _ _ h => Import.enum.inj h
  have hhelpers : ((s.helpers.map HelperDef.name).map Import.helper).Nodup :=
    (nodup_namesOf hv .helper).map fun _ _ h => Import.helper.inj h
  have htables := (nodup_variables hv).map fun _ _ h => Import.table.inj h
  rw [List.map_map] at henums hhelpers htables
  rw [entities, List.map_append, List.map_append, List.map_map, List.map_map, List.map_map,
    List.nodup_append, List.nodup_append]
  simp only [List.forall_mem_append, List.forall_mem_map]
  refine ⟨⟨henums, hhelpers, ?_⟩, htables, ?_, ?_⟩ <;>
  · intro _ _ _ _ h
    cases h

theorem nodup_singleBindings (hv : hasErrors s.validate = false)
    (hb : s.generateBatch.errors = []) : (singleBindings s.generateBatch.entities).Nodup := by
  rw [singleBindings, List.nodup_append, provides_generated hb]
  refine ⟨(ImportSet.nodup_items _).filter _, nodup_provides hv, fun i hi j hj => ?_⟩
  rintro rfl
  obtain ⟨e, -, rfl⟩ := List.mem_map.1 hj
  have hk := (List.mem_filter.1 hi).2
  rw [e.kind?_provides] at hk
  cases hk

theorem named_singleImports (hb : s.generateBatch.errors = []) :
    (s.generateBatch.entities.foldl (fun s g => s.erase g.provides)
      (consolidatedImports s.generateBatch.entities)).Named := by
  have hall : ∀ g ∈ s.generateBatch.entities, g.imports.Named := by
    intro g hg
    obtain ⟨e, -, he⟩ := exists_of_generated hb hg
    exact Entity.named_imports he
  have herase : ∀ (gs : List GeneratedEntity) (is : ImportSet), is.Named →
      (gs.foldl (fun s g => s.erase g.provides) is).Named := by
    intro gs
    induction gs with
    | nil => exact fun _ h => h
    | cons g gs ih => exact fun is h => ih _ (h.erase _)
  exact herase _ _ (ImportSet.named_empty.foldl_union hall)

/-- The declarations of all entities spell their tokens. -/
theorem closed_declarationsText (hb : s.generateBatch.errors = [])
    (hs : ∀ e ∈ s.entities, e.Spellable) :
    Closed (declarationsText s.generateBatch.entities) (s.entities.flatMap Entity.tokens) := by
  have hall := generated_entities hb
  have hl := hall.length_eq
  have htext : (s.entities.zip s.generateBatch.entities).map (fun p => p.2.declaration) =
      s.generateBatch.entities.map GeneratedEntity.declaration := by
    conv_rhs => rw [← List.map_snd_zip (Nat.le_of_eq hl.symm), List.map_map]
    rfl
  have htokens : (s.entities.zip s.generateBatch.entities).flatMap (fun p => p.1.tokens) =
      s.entities.flatMap Entity.tokens := by
    conv_rhs => rw [← List.map_fst_zip (Nat.le_of_eq hl), List.flatMap_map]
  rw [declarationsText, ← htext, ← htokens]
  refine .intercalate rfl fun p hp => ?_
  exact Entity.closed_declaration (List.forall₂_zip hall hp) (hs p.1 (List.of_mem_zip hp).1)

/-- **The names that the one module of all entities binds and uses.** -/
theorem names_singleModule (hv : hasErrors s.validate = false)
    (hb : s.generateBatch.errors = []) (hf : ∀ c ∈ s.columns, c.CallsFunction) :
    ∃ ts, HasTokens (singleModule s.generateBatch.entities).toList ts ∧
      (boundNames ts).Perm ((singleBindings s.generateBatch.entities).map Import.name) ∧
      usedNames ts = s.entities.flatMap fun e => e.uses.map Import.name := by
  have hs : ∀ e ∈ s.entities, e.Spellable := fun e he =>
    spellable hv he fun c hc => hf c (mem_columns_of_entity he hc)
  have htext := spells_joined (ImportSet.closed_render (named_singleImports hb) .singleModule)
    (closed_declarationsText hb hs)
  have hm := (ImportStatement.mentions_lines (ImportSet.statements (s.generateBatch.entities.foldl
    (fun s g => s.erase g.provides) (consolidatedImports s.generateBatch.entities))
    .singleModule)).append (Mentions.flatMap fun e (_ : e ∈ s.entities) => e.mentions_tokens)
  refine ⟨_, htext.hasTokens, ?_, ?_⟩
  · rw [boundNames, hm.eq, List.filterMap_append, bound?_bindings, List.filterMap_flatMap]
    simp only [bound?_declaration]
    rw [singleBindings, List.map_append, provides_generated hb, List.map_map,
      ← List.map_eq_flatMap, ← filter_items_foldl_erase s.generateBatch.entities]
    exact (ImportSet.names_statements _ .singleModule).append_right _
  · rw [usedNames, hm.eq, List.filterMap_append, used?_bindings, List.filterMap_flatMap,
      List.nil_append]
    simp only [used?_declaration]

/-- **When modules bind no name twice**: each binds what it imports and its entity,
    the one module of all binds the exports of libraries and all entities, and a
    name is bound twice exactly if it is the name of two kinds. -/
theorem modules_bind (s : Schema) (hv : hasErrors s.validate = false)
    (hb : s.generateBatch.errors = []) :
    List.Forall₂ (fun e g => e.generate = .ok g ∧
      Binds (g.render ((ImportScope.within g.kind).withTables s.tables))
        (∀ c ∈ e.columns, c.CallsFunction) g.bindings)
      s.entities s.generateBatch.entities ∧
    Binds (singleModule s.generateBatch.entities) (∀ c ∈ s.columns, c.CallsFunction)
      (singleBindings s.generateBatch.entities) := by
  have hall := generated_entities hb
  refine ⟨List.forall₂_iff_zip.2 ⟨hall.length_eq, fun {e g} h => ?_⟩, fun hf => ?_,
    nodup_names_iff (nodup_singleBindings hv hb)⟩
  · obtain ⟨he, -⟩ := List.of_mem_zip h
    have hg := List.forall₂_zip hall h
    refine ⟨hg, fun hf => ?_, nodup_names_iff (Entity.nodup_bindings hg)⟩
    obtain ⟨ts, ht, hbound, -⟩ := Entity.names_render hg (spellable hv he hf)
    exact ⟨ts, ht, hbound⟩
  · obtain ⟨ts, ht, hbound, -⟩ := names_singleModule hv hb hf
    exact ⟨ts, ht, hbound⟩

/-- A table whose variable is the name of the enum that it uses. -/
def statusSchema : Schema where
  outputDir := "db"
  enums := [⟨"status", ["open", "done"]⟩]
  tables := [{ name := "Status", columns := [.ofEnum "state" "status"] }]

theorem modules_bind_status :
    hasErrors statusSchema.validate = false ∧ statusSchema.generateBatch.errors = [] ∧
    (∃ g ∈ statusSchema.generateBatch.entities, g.kind = .table ∧
      ¬(g.bindings.map Import.name).Nodup) ∧
    ¬((singleBindings statusSchema.generateBatch.entities).map Import.name).Nodup := by
  have hv : hasErrors statusSchema.validate = false := by decide +kernel
  have hb : statusSchema.generateBatch.errors = [] := by decide +kernel
  obtain ⟨hmodules, hsingle⟩ := modules_bind statusSchema hv hb
  have hclash : ∃ g ∈ statusSchema.generateBatch.entities, g.kind = .table ∧ Clash g.bindings := by
    decide +kernel
  have hclash' : Clash (singleBindings statusSchema.generateBatch.entities) := by decide +kernel
  obtain ⟨g, hg, hk, hc⟩ := hclash
  refine ⟨hv, hb, ⟨g, hg, hk, fun hn => ?_⟩, fun hn => hsingle.nodup.1 hn hclash'⟩
  obtain ⟨i, hi, rfl⟩ := List.mem_iff_getElem.1 hg
  exact (hmodules.get (hmodules.length_eq ▸ hi) hi).2.nodup.1 hn hc

end Schema

end SchemaLoom
