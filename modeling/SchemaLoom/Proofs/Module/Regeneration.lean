/-
  The modules that changes leave alone.

  A module that no change is about stays as it is, while the tables that it
  imports may change.  It is what would be generated anew, unless the module of
  such a table is elsewhere (`Policy.Displaces`).

  * `ImportSet.render_eq_iff`: the text of a module depends on the names of the
    modules of the tables that it imports;
  * `Schema.tableModule_replayed`: where the module of a table is after the
    permitted changes;
  * `Schema.render_untouched`: when the module of an entity that no permitted
    change is about stays the same.
-/
import SchemaLoom.Proofs.Change.Permitted
import SchemaLoom.Proofs.Module.Scope

namespace SchemaLoom

open Source (Token)

/-! ## Modules in two scopes -/

/-- The text of a string. -/
def Source.Token.string? : Token → Option String
  | string text => some text
  | _ => none

/-- The only string of an import statement is its path. -/
theorem ImportStatement.strings_tokens (i : ImportStatement) :
    i.tokens.filterMap Token.string? = [i.path] := by
  have hnames : ∀ t ∈ [Token.comma].intercalate (i.names.map fun name => [.identifier name]),
      t.string? = none := by
    intro t ht
    cases t with
    | string text => exact absurd ht (notMem_intercalate (by simp) (by simp))
    | _ => rfl
  simp [tokens, List.filterMap_cons, List.filterMap_eq_nil_iff.2 hnames, Token.string?]

theorem strings_importTokens (is : List ImportStatement) :
    (importTokens (is.map ImportStatement.tokens)).filterMap Token.string? =
      is.map ImportStatement.path := by
  rw [importTokens, List.flatMap_map, List.filterMap_flatMap, List.map_eq_flatMap]
  refine List.flatMap_congr fun i _ => ?_
  simp [List.filterMap_cons, i.strings_tokens, Token.string?]

/-- Two functions that are defined on the same elements give the same list only if
    they agree. -/
theorem eq_of_filterMap_eq {α β : Type} {f g : α → Option β} {xs : List α}
    (hd : ∀ x, (f x).isSome = (g x).isSome) (h : xs.filterMap f = xs.filterMap g) :
    ∀ x ∈ xs, f x = g x := by
  induction xs with
  | nil => exact nofun
  | cons x xs ih =>
    have hx := hd x
    cases hf : f x with
    | none =>
      rw [hf, Option.isSome_none, Eq.comm, Option.isSome_eq_false_iff, Option.isNone_iff_eq_none]
        at hx
      rw [List.filterMap_cons_none hf, List.filterMap_cons_none hx] at h
      exact List.forall_mem_cons.2 ⟨hf.trans hx.symm, ih h⟩
    | some y =>
      rw [hf, Option.isSome_some, Eq.comm, Option.isSome_iff_exists] at hx
      obtain ⟨z, hg⟩ := hx
      rw [List.filterMap_cons_some hf, List.filterMap_cons_some hg] at h
      obtain ⟨hyz, h⟩ := List.cons.inj h
      exact List.forall_mem_cons.2 ⟨hf.trans (hyz ▸ hg.symm), ih h⟩

theorem siblingPath_inj {location kind : EntityKind} {a b : String} :
    siblingPath location kind a = siblingPath location kind b ↔ a = b := by
  refine ⟨fun h => ?_, fun h => h ▸ rfl⟩
  rw [siblingPath, siblingPath] at h
  split at h <;>
  · have h := congrArg String.toList h
    simp only [String.toList_append, List.append_cancel_right_eq, List.append_cancel_left_eq] at h
    exact String.toList_injective h

namespace ImportSet

variable {s : ImportSet} {kind : EntityKind} {a b : ImportScope}

/-- **When the import lines are the same in two scopes**: if the tables that are
    imported have the same modules. -/
theorem render_eq_iff (hs : s.Named) (ha : a.location = some kind) (hb : b.location = some kind) :
    s.render a = s.render b ↔
      ∀ v, .table v ∈ s.items → a.tableModule v = b.tableModule v := by
  constructor
  · intro h v hv
    have hpaths : (s.statements a).map ImportStatement.path =
        (s.statements b).map ImportStatement.path := by
      have htokens := (closed_render hs a).hasTokens.unique
        (h ▸ (closed_render hs b).hasTokens)
      rw [← strings_importTokens, htokens, strings_importTokens]
    simp only [statements, ha, hb, List.map_append, List.map_filterMap] at hpaths
    have hentities := List.append_cancel_left hpaths
    have hdefined : ∀ i, ((entityStatement? a kind i).map ImportStatement.path).isSome =
        ((entityStatement? b kind i).map ImportStatement.path).isSome := by
      intro i
      cases i <;> rfl
    have hpath := eq_of_filterMap_eq hdefined hentities _ hv
    exact siblingPath_inj.1 (Option.some.inj hpath)
  · intro h
    have hstatements : s.items.filterMap (entityStatement? a kind) =
        s.items.filterMap (entityStatement? b kind) := by
      refine List.filterMap_congr fun i hi => ?_
      cases i with
      | table v => rw [entityStatement?, entityStatement?, h v hi]
      | _ => rfl
    simp only [render, lines_eq, statements, ha, hb, hstatements]

end ImportSet

/-- The text of a module tells its import lines. -/
theorem GeneratedEntity.render_eq_iff {g : GeneratedEntity} {a b : ImportScope} :
    g.render a = g.render b ↔ g.imports.render a = g.imports.render b := by
  refine ⟨fun h => ?_, fun h => by rw [render, render, h]⟩
  have hlength := congrArg String.length h
  simp only [render] at h hlength
  split at h <;> split at h
  next ha hb => rw [String.isEmpty_iff.1 ha, String.isEmpty_iff.1 hb]
  next ha hb => simp [ha, hb] at hlength
  next ha hb => simp [ha, hb] at hlength
  · have h := congrArg String.toList h
    simp only [String.toList_append, List.append_cancel_right_eq] at h
    exact String.toList_injective h

/-! ## Tables after the permitted changes -/

/-- If additions are made at the end and are all let through, while removals are or
    are not, what stays comes first and what is added last. -/
theorem ListReplay.members_append {α : Type} (M : ListReplay α) {p : Change → Bool} {b : Bool}
    {old new : List α} (hput : ∀ as x, M.put as x = as ++ [x.1])
    (ho : (old.map M.name).Nodup) (hn : (new.map M.name).Nodup) (hadd : ∀ x, p (M.added x) = true)
    (hrem : ∀ x, p (M.removed x) = b) :
    M.members p old new old =
      old.filter (fun o => M.name o ∈ new.map M.name ∨ b = false) ++
        new.filter fun n => M.name n ∉ old.map M.name := by
  have hfold : ∀ (xs : List (α × Nat)) (as : List α),
      xs.foldl M.put as = as ++ xs.map Prod.fst := by
    intro xs
    induction xs with
    | nil => exact fun as => (List.append_nil as).symm
    | cons x xs ih => exact fun as => by simp [hput, ih]
  have hadded : (M.addedItems p old new).map Prod.fst =
      new.filter fun n => M.name n ∉ old.map M.name := by
    rw [addedItems, List.filter_eq_self.2 fun x _ => hadd x, map_fst_absentFrom]
  rw [M.members_eq p ho hn, hfold, List.filter_append, hadded]
  congr 1
  · refine List.filter_congr fun o hmo => decide_eq_decide.2 ?_
    rw [M.mem_removedNames p (g := fun _ => b) hrem ho hmo, not_and, Bool.not_eq_true]
    tauto
  · refine List.filter_eq_self.2 fun n hmn => decide_eq_true fun hr => ?_
    exact M.not_mem_of_mem_removedNames p hr (List.mem_map_of_mem (List.mem_of_mem_filter hmn))

namespace ImportScope

variable {scope : ImportScope} {ts us : List TableDef} {t : TableDef}

/-- A table that alone binds its variable is found by it. -/
theorem tableModule_of_mem (hs : scope.tableNames = [])
    (hn : (ts.map TableDef.variableName).Nodup) (ht : t ∈ ts) :
    (scope.withTables ts).tableModule t.variableName = t.name := by
  obtain ⟨u, hu, hv, hm⟩ := exists_tableModule hs ht
  rw [hm, List.inj_on_of_nodup_map hn hu ht hv]

/-- Where no table binds a variable, a module of its name is taken. -/
theorem tableModule_of_unbound {v : String} (hs : scope.tableNames = [])
    (h : ∀ t ∈ ts, t.variableName ≠ v) : (scope.withTables ts).tableModule v = v := by
  have hf : (ts.map TableDef.name).reverse.find? (fun name => tableVariable name == v) = none := by
    simpa [List.find?_eq_none, TableDef.variableName] using h
  rw [tableModule, withTables, hs, List.nil_append, hf]
  rfl

/-- The tables that come last are found first. -/
theorem tableModule_append (hs : scope.tableNames = []) (v : String) :
    (scope.withTables (ts ++ us)).tableModule v =
      if ∃ u ∈ us, u.variableName = v then (scope.withTables us).tableModule v
      else (scope.withTables ts).tableModule v := by
  simp only [tableModule, withTables, hs, List.nil_append, List.map_append, List.reverse_append,
    List.find?_append]
  cases hf : (us.map TableDef.name).reverse.find? fun name => tableVariable name == v with
  | some name =>
    obtain ⟨u, hu, rfl⟩ := List.mem_map.1 (List.mem_reverse.1 (List.mem_of_find?_eq_some hf))
    have hv : tableVariable u.name = v := by simpa using List.find?_some hf
    rw [if_pos ⟨u, hu, hv⟩]
    rfl
  | none =>
    rw [if_neg (by simpa [List.find?_eq_none, TableDef.variableName] using hf)]
    rfl

end ImportScope

/-- The changes to a schema that a policy permits lead the variable of a table to
    another module: the schema has no table of this name, but another one that is
    bound to the variable, or the table goes and was not named like it. -/
def Policy.Displaces (policy : Policy) (new : Schema) (t : TableDef) : Prop :=
  t.name ∉ new.namesOf .table ∧ ((∃ n ∈ new.tables, n.variableName = t.variableName) ∨
    policy.allowBreaking = true ∧ t.name ≠ t.variableName)

instance (policy : Policy) (new : Schema) (t : TableDef) : Decidable (policy.Displaces new t) :=
  inferInstanceAs (Decidable (_ ∧ _))

namespace Schema

/-- The tables that stay when the permitted changes to another schema are made. -/
def keptTables (policy : Policy) (old new : Schema) : List TableDef :=
  old.tables.filter fun o => o.name ∈ new.namesOf .table ∨ policy.allowBreaking = false

/-- The tables that are added. -/
def addedTables (old new : Schema) : List TableDef :=
  new.tables.filter fun n => n.name ∉ old.namesOf .table

/-- After the permitted changes, the tables that stay come before those that are
    added. -/
theorem withTables_replayed {old new : Schema} (ho : old.Distinct) (hn : new.Distinct)
    (policy : Policy) (scope : ImportScope) :
    scope.withTables (old.replayed policy.lets new).tables =
      scope.withTables (keptTables policy old new ++ addedTables old new) := by
  have hmembers : tableReplay.members policy.lets old.tables new.tables old.tables =
      keptTables policy old new ++ addedTables old new :=
    tableReplay.members_append (fun _ _ => rfl) ho.tableNames hn.tableNames (fun _ => rfl)
      fun _ => rfl
  have hnames : (old.replayed policy.lets new).tables.map TableDef.name =
      (keptTables policy old new ++ addedTables old new).map TableDef.name :=
    (tableReplay.map_name_replayed policy.lets (fun q => q.1.replayed policy.lets q.2)
      fun q hq => ((mem_paired ho.tableNames).1 hq).2.2).trans (congrArg _ hmembers)
  rw [ImportScope.withTables, ImportScope.withTables, hnames]

section
variable {old new : Schema} (hvo : hasErrors old.validate = false) {t : TableDef}
  (ht : t ∈ old.tables)
include hvo ht

/-- A table that is added binds the variable of an old one only if the new schema
    lacks the old one. -/
theorem exists_added_iff (hvn : hasErrors new.validate = false) :
    (∃ n ∈ addedTables old new, n.variableName = t.variableName) ↔
      t.name ∉ new.namesOf .table ∧ ∃ n ∈ new.tables, n.variableName = t.variableName := by
  simp only [addedTables, List.mem_filter, decide_eq_true_iff]
  constructor
  · rintro ⟨n, ⟨hn, hadded⟩, hv⟩
    refine ⟨fun hname => ?_, n, hn, hv⟩
    obtain ⟨m, hm, hname⟩ := List.mem_map.1 hname
    have hmv : m.variableName = n.variableName := by
      rw [hv, TableDef.variableName, hname, TableDef.variableName]
    obtain rfl := List.inj_on_of_nodup_map (nodup_variables hvn) hm hn hmv
    exact hadded (hname ▸ List.mem_map_of_mem ht)
  · rintro ⟨hname, n, hn, hv⟩
    refine ⟨n, ⟨hn, fun hold => ?_⟩, hv⟩
    obtain ⟨o, ho, hon⟩ := List.mem_map.1 hold
    have hov : o.variableName = t.variableName := by
      rw [← hv, TableDef.variableName, hon, TableDef.variableName]
    obtain rfl := List.inj_on_of_nodup_map (nodup_variables hvo) ho ht hov
    exact hname (hon ▸ List.mem_map_of_mem hn)

/-- Among the tables that stay, one is found by its variable exactly if it stays
    or is named like its variable. -/
theorem tableModule_kept (policy : Policy) {scope : ImportScope} (hs : scope.tableNames = []) :
    (scope.withTables (keptTables policy old new)).tableModule t.variableName = t.name ↔
      (t.name ∈ new.namesOf .table ∨ policy.allowBreaking = false) ∨
        t.name = t.variableName := by
  have hdistinct : ((keptTables policy old new).map TableDef.variableName).Nodup :=
    (nodup_variables hvo).sublist (List.filter_sublist.map _)
  have hkept : t ∈ keptTables policy old new ↔
      t.name ∈ new.namesOf .table ∨ policy.allowBreaking = false := by
    rw [keptTables, List.mem_filter, decide_eq_true_iff]
    exact and_iff_right ht
  by_cases h : t ∈ keptTables policy old new
  · rw [ImportScope.tableModule_of_mem hs hdistinct h]
    exact iff_of_true rfl (.inl (hkept.1 h))
  · have hunbound : ∀ u ∈ keptTables policy old new, u.variableName ≠ t.variableName := by
      intro u hu hv
      have hut := List.inj_on_of_nodup_map (nodup_variables hvo) (List.mem_of_mem_filter hu) ht hv
      exact h (hut ▸ hu)
    rw [ImportScope.tableModule_of_unbound hs hunbound, or_iff_right (mt hkept.2 h), eq_comm]

/-- **Where the module of a table is after the permitted changes.** -/
theorem tableModule_replayed (hvn : hasErrors new.validate = false) (ho : old.Distinct)
    (hn : new.Distinct) (policy : Policy) {scope : ImportScope} (hs : scope.tableNames = []) :
    (scope.withTables (old.replayed policy.lets new).tables).tableModule t.variableName = t.name ↔
      ¬policy.Displaces new t := by
  have hbound := exists_added_iff hvo ht hvn
  rw [withTables_replayed ho hn, ImportScope.tableModule_append hs, Policy.Displaces]
  by_cases hadded : ∃ n ∈ addedTables old new, n.variableName = t.variableName
  · -- the module of a table that is added is that of no old one
    obtain ⟨n, hmem, hv⟩ := hadded
    obtain ⟨u, hu, -, hm⟩ := ImportScope.exists_tableModule hs hmem
    have hnew : u.name ∉ old.namesOf .table := of_decide_eq_true (List.mem_filter.1 hu).2
    rw [if_pos ⟨n, hmem, hv⟩, ← hv, hm]
    refine iff_of_false (fun hut => hnew (hut ▸ List.mem_map_of_mem ht)) fun h => h ?_
    obtain ⟨hname, hn⟩ := hbound.1 ⟨n, hmem, hv⟩
    exact ⟨hname, .inl (hv ▸ hn)⟩
  · rw [if_neg hadded, tableModule_kept hvo ht policy hs]
    by_cases hname : t.name ∈ new.namesOf .table
    · exact iff_of_true (.inl (.inl hname)) fun h => h.1 hname
    · have hfree : ¬∃ n ∈ new.tables, n.variableName = t.variableName :=
        fun h => hadded (hbound.2 ⟨hname, h⟩)
      cases policy.allowBreaking <;> simp [hname, hfree]

end

/-! ## Entities that no change is about -/

/-- No enum has a value twice, and no table spreads a helper twice. -/
structure Unrepeated (s : Schema) : Prop where
  values : ∀ e ∈ s.enums, e.values.Nodup
  helperReferences : ∀ t ∈ s.tables, t.helperReferences.Nodup

theorem Unrepeated.distinct {s : Schema} (h : s.Unrepeated) (hv : hasErrors s.validate = false) :
    s.Distinct where
  enumNames := nodup_namesOf hv .enum
  helperNames := nodup_namesOf hv .helper
  tableNames := nodup_namesOf hv .table
  enums := h.values
  helpers _ hm := nodup_columns_of_helper hv hm
  tables t hm := ⟨nodup_columns_of_table hv hm, h.helperReferences t hm⟩

theorem Distinct.nodup_namesOf {s : Schema} (h : s.Distinct) (kind : EntityKind) :
    (s.namesOf kind).Nodup := by
  cases kind with
  | enum => exact h.enumNames
  | helper => exact h.helperNames
  | table => exact h.tableNames

/-- An entity that no change is about was there before. -/
theorem mem_of_untouched {old new merged : Schema} {cs : List Change} (ho : old.Distinct)
    (hcs : cs.Sublist (old.changesTo new)) (hm : old.merge cs = .ok merged) {e : Entity}
    (he : e ∈ merged.entities) (hu : ∀ c ∈ cs, c.entity ≠ e.ref) : e ∈ old.entities := by
  have hfollows := Footprint.follows_of_merge
    (fun c hc => proper_changesTo old new c (hcs.subset hc)) (fun c _ => ?_) hm
  · have huntouched : e.ref ∉ (Footprint.ofChanges cs).touched := fun h => by
      obtain ⟨c, hc, hce⟩ := Footprint.mem_touched_ofChanges.1 h
      exact hu c hc hce
    have hkept : e ∈ merged.entities.filter fun e => e.ref ∉ (Footprint.ofChanges cs).touched :=
      List.mem_filter.2 ⟨he, decide_eq_true huntouched⟩
    rw [hfollows.others] at hkept
    exact List.mem_of_mem_filter hkept
  · rw [Change.entity, countRef_eq]
    exact List.nodup_iff_count_le_one.1 (ho.nodup_namesOf _) _

/-- **When the module of an entity that no permitted change is about stays the
    same**: if no table that it imports is displaced. -/
theorem render_untouched {old new : Schema} (hvo : hasErrors old.validate = false)
    (hvn : hasErrors new.validate = false) (hro : old.Unrepeated) (hrn : new.Unrepeated)
    (policy : Policy) : ∃ merged,
    old.merge (policy.partition (old.changesTo new)).1 = .ok merged ∧
    ∀ e ∈ merged.entities,
      (∀ c ∈ (policy.partition (old.changesTo new)).1, c.entity ≠ e.ref) →
      e ∈ old.entities ∧ ∀ g, e.generate = .ok g →
        (g.render ((ImportScope.within g.kind).withTables merged.tables) =
            g.render ((ImportScope.within g.kind).withTables old.tables) ↔
          ∀ t ∈ old.tables, .table t.variableName ∈ g.imports.items →
            ¬policy.Displaces new t) := by
  have ho := hro.distinct hvo
  have hn := hrn.distinct hvn
  rw [policy.partition_fst]
  have hm := merge_changesTo policy.lets ho hn
  refine ⟨_, hm, fun e he hu => ?_⟩
  have heo := mem_of_untouched ho List.filter_sublist hm he hu
  refine ⟨heo, fun g hg => ?_⟩
  have hmodule : ∀ t ∈ old.tables,
      (((ImportScope.within g.kind).withTables (old.replayed policy.lets new).tables).tableModule
          t.variableName =
        ((ImportScope.within g.kind).withTables old.tables).tableModule t.variableName ↔
      ¬policy.Displaces new t) := by
    intro t ht
    have hold : ((ImportScope.within g.kind).withTables old.tables).tableModule t.variableName =
        t.name := ImportScope.tableModule_of_mem rfl (nodup_variables hvo) ht
    rw [hold]
    exact tableModule_replayed hvo ht hvn ho hn policy rfl
  rw [GeneratedEntity.render_eq_iff,
    ImportSet.render_eq_iff (Entity.named_imports hg) rfl rfl]
  constructor
  · exact fun h t ht hi => (hmodule t ht).1 (h _ hi)
  · intro h v hi
    -- what is imported is bound by a table of the old schema
    obtain ⟨d, hd, hp⟩ := exists_provider hvo heo ((Entity.mem_imports hg).1 hi).1 rfl
    cases d with
    | table t =>
      obtain rfl := Import.table.inj hp
      have ht := mem_entities_table.1 hd
      exact (hmodule t ht).2 (h t ht hi)
    | _ => cases hp

/-- Posts, each with its author. -/
def posts : TableDef where
  name := "posts"
  columns := [(Column.ofType "author" .uuid).withReference "users" "id"]

/-- Posts and their authors, whose table has this name. -/
def blog (authors : String) : Schema where
  outputDir := "db"
  tables := [{ name := authors, columns := [.ofType "id" .uuid] }, posts]

/-- When the table of the authors is renamed by case only, the module of the posts
    still imports the one that is gone. -/
theorem render_untouched_blog :
    let old := blog "Users"
    let new := blog "users"
    let policy : Policy := { allowBreaking := true, allowWarning := true }
    (hasErrors old.validate = false ∧ hasErrors new.validate = false ∧ old.Unrepeated ∧
      new.Unrepeated) ∧
    ∃ merged, old.merge (policy.partition (old.changesTo new)).1 = .ok merged ∧
      .table posts ∈ merged.entities ∧
      (∀ c ∈ (policy.partition (old.changesTo new)).1, c.entity ≠ ⟨.table, "posts"⟩) ∧
      ∃ g, posts.generate = .ok g ∧
        g.render ((ImportScope.within g.kind).withTables merged.tables) ≠
          g.render ((ImportScope.within g.kind).withTables old.tables) := by
  intro old new policy
  have hvo : hasErrors old.validate = false := by decide +kernel
  have hvn : hasErrors new.validate = false := by decide +kernel
  have hro : old.Unrepeated := ⟨nofun, by decide⟩
  have hrn : new.Unrepeated := ⟨nofun, by decide⟩
  obtain ⟨merged, hm, huntouched⟩ := render_untouched hvo hvn hro hrn policy
  have htables : (old.merge (policy.partition (old.changesTo new)).1).map Schema.tables =
      .ok [posts, { name := "users", columns := [.ofType "id" .uuid] }] := by decide +kernel
  have hposts : .table posts ∈ merged.entities := by
    rw [hm] at htables
    rw [mem_entities_table, Except.ok.inj htables]
    exact List.mem_cons_self
  have hothers : ∀ c ∈ (policy.partition (old.changesTo new)).1,
      c.entity ≠ ⟨.table, "posts"⟩ := by decide +kernel
  have himports : posts.generate.map (fun g => g.imports.contains (.table "users")) =
      .ok true := by decide +kernel
  obtain ⟨g, hg, hi⟩ := map_eq_ok_iff.1 himports
  have hi : .table "users" ∈ g.imports.items := List.contains_iff_mem.1 hi
  refine ⟨⟨hvo, hvn, hro, hrn⟩, merged, hm, hposts, hothers, g, hg, fun hsame => ?_⟩
  exact ((huntouched _ hposts hothers).2 g hg).1 hsame _ List.mem_cons_self hi (by decide +kernel)

end Schema

end SchemaLoom
