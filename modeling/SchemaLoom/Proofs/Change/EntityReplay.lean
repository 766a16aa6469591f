/-
  How the changes of a schema are made, list by list.

  The values of an enum, the columns of a helper or a table, the helpers of a
  table, and the entities of each kind are named lists whose changes are made as
  `ListReplay` tells.

  * `Schema.merge_filter`: the changes between two schemas that are let through
    are made kind by kind.
-/
import SchemaLoom.Proofs.Change.Merge
import SchemaLoom.Proofs.Change.ListReplay

namespace SchemaLoom

variable {c : Change}

/-! ## Lists of names -/

/-- The name and the position that a change of a list of names is told with. -/
def ChangeDetails.listed? : ChangeDetails → Option (String × Nat)
  | .enumValue value position => some (value, position)
  | .helperReference used position => some (used, position)
  | _ => none

/-- A change of a list of names. -/
def makeName (added : ChangeType) (names : List String) (c : Change) :
    Except MergeError (List String) :=
  match c.details.listed? with
  | some (s, i) =>
    if c.type = added then insertNew (· == s) i s c.target names
    else removeFirst (· == s) c.target names
  | none => .error (.mismatchedDetails c.type c.target)

theorem makeName_added {added : ChangeType} {s : String} {i : Nat}
    (hd : c.details.listed? = some (s, i)) (ht : c.type = added) (names : List String) :
    makeName added names c = insertNew (· == s) i s c.target names := by
  simp only [makeName, hd]
  exact if_pos ht

theorem makeName_removed {added : ChangeType} {s : String} {i : Nat}
    (hd : c.details.listed? = some (s, i)) (ht : c.type ≠ added) (names : List String) :
    makeName added names c = removeFirst (· == s) c.target names := by
  simp only [makeName, hd]
  exact if_neg ht

/-- How the changes between two lists of names are made. -/
def nameReplay (kind : EntityKind) (entity : String) (added removed : ChangeType)
    (describe : String → String → String) (details : String → Nat → ChangeDetails)
    (hne : added ≠ removed) (hd : ∀ s i j, (details s i).unplaced = (details s j).unplaced)
    (hl : ∀ s i, (details s i).listed? = some (s, i)) : ListReplay String where
  toListComparison := nameComparison kind entity added removed describe details hne hd
  put as x := insertAt x.2 x.1 as
  make := makeName added
  inner s _ := .ok s
  addsTo_put as x := addsTo_insertAt x.2 x.1 as
  make_added as x := makeName_added (hl x.1 x.2) rfl as
  make_removed as x := makeName_removed (hl x.1 x.2) hne.symm as
  make_inside _ _ _ hc := absurd hc List.not_mem_nil
  name_inner _ _ _ h := Except.ok.inj h ▸ rfl

/-- How the changes of the values of an enum are made. -/
def valueReplay (entity : String) : ListReplay String :=
  nameReplay .enum entity .enumValueAdded .enumValueRemoved
    (fun phrase v => "Value '" ++ v ++ "' " ++ phrase ++ " enum '" ++ entity ++ "'") .enumValue
    enumValueAdded_ne unplaced_enumValue fun _ _ => rfl

/-- How the changes of the helpers that a table spreads are made. -/
def referenceReplay (entity : String) : ListReplay String :=
  nameReplay .table entity .tableHelperAdded .tableHelperRemoved
    (fun phrase h => "Helper '" ++ h ++ "' " ++ phrase ++ " table '" ++ entity ++ "'")
    .helperReference tableHelperAdded_ne unplaced_helperReference fun _ _ => rfl

/-! ## Lists of columns -/

/-- A change of one column. -/
def Column.makeChange (column : Column) (c : Change) : Except MergeError Column :=
  match c.details with
  | .columnChange _ new => patch c.type c.target new column
  | _ => .error (.mismatchedDetails c.type c.target)

/-- A change of a list of columns. -/
def makeColumn (added : ChangeType) (columns : List Column) (c : Change) :
    Except MergeError (List Column) :=
  match c.details with
  | .column definition i =>
    if c.type = added then
      insertNew (fun k => k.name == definition.name) i definition c.target columns
    else removeFirst (fun k => k.name == definition.name) c.target columns
  | .columnChange _ _ =>
    updateFirst (fun k => k.name == c.target.member.getD "") (Column.makeChange · c) c.target
      columns
  | _ => .error (.mismatchedDetails c.type c.target)

section
variable {added : ChangeType} {definition new : Column} {i : Nat}

theorem makeColumn_added (hd : c.details = .column definition i) (ht : c.type = added)
    (columns : List Column) : makeColumn added columns c =
      insertNew (fun k => k.name == definition.name) i definition c.target columns := by
  simp only [makeColumn, hd]
  exact if_pos ht

theorem makeColumn_removed (hd : c.details = .column definition i) (ht : c.type ≠ added)
    (columns : List Column) : makeColumn added columns c =
      removeFirst (fun k => k.name == definition.name) c.target columns := by
  simp only [makeColumn, hd]
  exact if_neg ht

end

theorem Column.name_patch {type : ChangeType} {target : ChangeTarget} {new a b : Column}
    (h : patch type target new a = .ok b) : b.name = a.name := by
  cases type <;> cases h <;> rfl

theorem Column.name_makeChange {a b : Column} (h : a.makeChange c = .ok b) : b.name = a.name := by
  rw [makeChange] at h
  split at h
  · exact name_patch h
  · cases h

/-- How the changes between two lists of columns are made. -/
def columnReplay (kind : EntityKind) (entity : String) (added removed : ChangeType)
    (h : added ≠ removed ∧ added ∉ columnTypes ∧ removed ∉ columnTypes) : ListReplay Column where
  toListComparison := columnComparison kind entity added removed h
  put as x := insertAt x.2 x.1 as
  make := makeColumn added
  inner := Column.makeChange
  addsTo_put as x := addsTo_insertAt x.2 x.1 as
  make_added as x := makeColumn_added (columnAddition_details kind entity added x)
    (columnAddition_type kind entity added x) as
  make_removed as x := makeColumn_removed rfl h.1.symm as
  make_inside o n c hc as := by
    obtain ⟨m, -, rfl⟩ := List.mem_map.1 hc
    rfl
  name_inner _ _ _ := Column.name_makeChange

/-- What a change of columns is told with. -/
theorem Change.details_columns {kind : EntityKind} {entity : String} {added removed : ChangeType}
    {old new : List Column} (hc : c ∈ memberColumnChanges kind entity added removed old new ∨
      c ∈ pairedColumnChanges kind entity old new) :
    (∃ definition i, c.details = .column definition i) ∨ ∃ o n, c.details = .columnChange o n := by
  rw [memberColumnChanges, List.mem_append, List.mem_map, List.mem_map] at hc
  rcases hc with (⟨x, -, rfl⟩ | ⟨x, -, rfl⟩) | hc
  · exact .inl ⟨x.1, x.2, columnAddition_details kind entity added x⟩
  · exact .inl ⟨x.1, x.2, rfl⟩
  · obtain ⟨q, -, hc⟩ := List.mem_flatMap.1 hc
    obtain ⟨m, -, rfl⟩ := List.mem_map.1 hc
    exact .inr ⟨q.1, q.2, rfl⟩

/-- A change of the columns of a helper or a table, made in a schema. -/
theorem Change.apply_columns {kind : EntityKind} {entity : String} {added removed : ChangeType}
    {old new : List Column} (hadded : added = .helperColumnAdded ∨ added = .tableColumnAdded)
    (hremoved : removed = .helperColumnRemoved ∨ removed = .tableColumnRemoved)
    (hc : c ∈ memberColumnChanges kind entity added removed old new ∨
      c ∈ pairedColumnChanges kind entity old new) (s : Schema) :
    c.apply s = s.updateColumns c.target (makeColumn added · c) := by
  rw [memberColumnChanges, List.mem_append, List.mem_map, List.mem_map] at hc
  rcases hc with (⟨x, -, rfl⟩ | ⟨x, -, rfl⟩) | hc
  · have hd := columnAddition_details kind entity added x
    have ht := columnAddition_type kind entity added x
    rw [funext (makeColumn_added hd ht)]
    rcases hadded with rfl | rfl <;> simp only [apply, hd, ht]
  · have hne : removed ≠ added := by
      rcases hadded with rfl | rfl <;> rcases hremoved with rfl | rfl <;> decide
    rw [funext (makeColumn_removed rfl hne)]
    rcases hremoved with rfl | rfl <;> rfl
  · obtain ⟨q, -, hc⟩ := List.mem_flatMap.1 hc
    obtain ⟨m, -, rfl⟩ := List.mem_map.1 hc
    rfl

/-- How the changes of the columns of a helper are made. -/
def helperColumnReplay (entity : String) : ListReplay Column :=
  columnReplay .helper entity .helperColumnAdded .helperColumnRemoved (by decide)

/-- How the changes of the columns of a table are made. -/
def tableColumnReplay (entity : String) : ListReplay Column :=
  columnReplay .table entity .tableColumnAdded .tableColumnRemoved (by decide)

/-! ## Entities -/

/-- A change inside an enum. -/
def EnumDef.makeChange (e : EnumDef) (c : Change) : Except MergeError EnumDef :=
  (makeName .enumValueAdded e.values c).map fun values => { e with values }

/-- A change inside a helper. -/
def HelperDef.makeChange (h : HelperDef) (c : Change) : Except MergeError HelperDef :=
  (makeColumn .helperColumnAdded h.columns c).map fun columns => { h with columns }

/-- A change inside a table. -/
def TableDef.makeChange (t : TableDef) (c : Change) : Except MergeError TableDef :=
  match c.details with
  | .helperReference _ _ =>
    (makeName .tableHelperAdded t.helperReferences c).map fun helperReferences =>
      { t with helperReferences }
  | .compositePrimaryKey _ new => .ok { t with compositePrimaryKey := new }
  | .dbName _ new => .ok { t with dbName := if new = Text.snakeCase t.name then none else some new }
  | _ => (makeColumn .tableColumnAdded t.columns c).map fun columns => { t with columns }

/-- The entities of a kind are a part of the schema, and a change inside one of
    them is made by `inner`. -/
structure Shelf.Makes {α : Type} (S : Shelf α) (inner : α → Change → Except MergeError α) :
    Prop where
  get_put : ∀ s as, S.get (S.put s as) = as
  put_put : ∀ s as bs, S.put (S.put s as) bs = S.put s bs
  put_get : ∀ s, S.put s (S.get s) = s
  apply_inside : ∀ o n, ∀ c ∈ S.inside o n, ∀ s, c.apply s =
    (updateFirst (fun a => S.name a == S.name n) (inner · c) c.target (S.get s)).map (S.put s)
  name_inner : ∀ a c b, inner a c = .ok b → S.name b = S.name a

theorem enumShelf_makes : enumShelf.Makes EnumDef.makeChange where
  get_put _ _ := rfl
  put_put _ _ _ := rfl
  put_get _ := rfl
  apply_inside o n c hc s := by
    rcases List.mem_append.1 hc with hc | hc
    · obtain ⟨x, -, rfl⟩ := List.mem_map.1 hc
      rfl
    · obtain ⟨x, -, rfl⟩ := List.mem_map.1 hc
      rfl
  name_inner _ _ _ h := eq_of_map_eq_ok h fun _ => rfl

theorem helperShelf_makes : helperShelf.Makes HelperDef.makeChange where
  get_put _ _ := rfl
  put_put _ _ _ := rfl
  put_get _ := rfl
  apply_inside o n c hc s := by
    obtain ⟨hk, ht⟩ := about_helperChanges o n c hc
    rw [Change.apply_columns (.inl rfl) (.inl rfl) (List.mem_append.1 hc), Schema.updateColumns,
      hk, ht]
    rfl
  name_inner _ _ _ h := eq_of_map_eq_ok h fun _ => rfl

/-- A change of the columns of a table. -/
theorem TableDef.makeChange_columns {o n : TableDef}
    (hc : c ∈ tableMemberChanges o n ∨ c ∈ tablePairChanges o n) (t : TableDef) : t.makeChange c =
      (makeColumn .tableColumnAdded t.columns c).map fun columns => { t with columns } := by
  rcases Change.details_columns hc with ⟨d, i, hd⟩ | ⟨d, e, hd⟩
  · simp only [makeChange, hd]
  · simp only [makeChange, hd]

theorem tableShelf_makes : tableShelf.Makes TableDef.makeChange where
  get_put _ _ := rfl
  put_put _ _ _ := rfl
  put_get _ := rfl
  apply_inside o n c hc s := by
    obtain ⟨hk, ht⟩ := about_tableChanges o n c hc
    have hcolumns : c ∈ tableMemberChanges o n ∨ c ∈ tablePairChanges o n → c.apply s =
        (updateFirst (fun a => a.name == n.name) (TableDef.makeChange · c) c.target s.tables).map
          fun tables => { s with tables } := by
      intro hc
      rw [Change.apply_columns (.inr rfl) (.inr rfl) hc, Schema.updateColumns, hk,
        funext (TableDef.makeChange_columns hc), ← ht]
      rfl
    have hparts : c ∈ tableMemberChanges o n ++ helperReferenceChanges o n ++
      compositeKeyChange o n ++ dbNameChange o n ++ tablePairChanges o n := hc
    simp only [List.mem_append] at hparts
    rcases hparts with (((hc | hc) | hc) | hc) | hc
    · exact hcolumns (.inl hc)
    · rcases List.mem_append.1 hc with hc | hc
      · obtain ⟨x, -, rfl⟩ := List.mem_map.1 hc
        rfl
      · obtain ⟨x, -, rfl⟩ := List.mem_map.1 hc
        rfl
    · rw [compositeKeyChange] at hc
      split at hc
      · cases hc
      · obtain rfl := List.mem_singleton.1 hc
        rfl
    · rw [dbNameChange] at hc
      split at hc
      · cases hc
      · obtain rfl := List.mem_singleton.1 hc
        rfl
    · exact hcolumns (.inr hc)
  name_inner a c b h := by
    rw [TableDef.makeChange] at h
    split at h
    · exact eq_of_map_eq_ok h fun _ => rfl
    · cases h
      rfl
    · cases h
      rfl
    · exact eq_of_map_eq_ok h fun _ => rfl

/-! ## Schemas -/

namespace Shelf

variable {α : Type} {S : Shelf α} {inner : α → Change → Except MergeError α}

/-- A change of the entities of one kind, made in a schema that has only
    them. -/
def make (S : Shelf α) (as : List α) (c : Change) : Except MergeError (List α) :=
  (c.apply (S.put { outputDir := "" } as)).map S.get

theorem Makes.make_eq (h : S.Makes inner) {f : List α → Except MergeError (List α)}
    (hf : ∀ s, c.apply s = (f (S.get s)).map (S.put s)) (as : List α) : S.make as c = f as := by
  rw [make, hf, h.get_put]
  cases f as with
  | error e => rfl
  | ok bs => exact congrArg Except.ok (h.get_put _ _)

/-- How the changes of the entities of one kind are made. -/
def replay (S : Shelf α) {inner : α → Change → Except MergeError α} (h : S.Makes inner) :
    ListReplay α where
  toListComparison := S.comparison
  put as x := as ++ [x.1]
  make := S.make
  inner := inner
  addsTo_put as x := addsTo_append x.1 as
  make_added as x := h.make_eq (S.apply_added _ x.1 rfl rfl) as
  make_removed as x := h.make_eq (S.apply_removed _ x.1 rfl rfl) as
  make_inside o n c hc as := h.make_eq (h.apply_inside o n c hc) as
  name_inner := h.name_inner

/-- A change of the entities of one kind, made in a schema. -/
theorem Makes.apply_eq (h : S.Makes inner) {old new : List α} (hc : c ∈ S.changes old new)
    (s : Schema) : c.apply s = (S.make (S.get s) c).map (S.put s) := by
  have hf : ∃ f : List α → Except MergeError (List α),
      ∀ s, c.apply s = (f (S.get s)).map (S.put s) := by
    rw [changes_eq, List.mem_append, List.mem_append] at hc
    rcases hc with (hc | hc) | hc
    · obtain ⟨x, -, rfl⟩ := List.mem_map.1 hc
      exact ⟨_, S.apply_added _ x.1 rfl rfl⟩
    · obtain ⟨x, -, rfl⟩ := List.mem_map.1 hc
      exact ⟨_, S.apply_removed _ x.1 rfl rfl⟩
    · obtain ⟨q, -, hc⟩ := List.mem_flatMap.1 hc
      exact ⟨_, h.apply_inside _ _ c hc⟩
  obtain ⟨f, hf⟩ := hf
  rw [h.make_eq hf, hf]

/-- The changes of the entities of one kind, made in a schema. -/
theorem Makes.merge_filter (h : S.Makes inner) (p : Change → Bool) (old new : List α)
    (s : Schema) : s.merge ((S.changes old new).filter p) =
      (((S.changes old new).filter p).foldlM (S.replay h).make (S.get s)).map (S.put s) := by
  have hpart := foldlM_part S.get S.put h.get_put h.put_put h.put_get S.make
    ((S.changes old new).filter p) s
  rw [Schema.merge]
  refine (foldlM_congr (fun c hc s => ?_) s).trans hpart
  exact h.apply_eq (List.mem_of_mem_filter hc) s

end Shelf

/-- The changes of the enums of a schema, made on the list of them. -/
def enumReplay : ListReplay EnumDef := enumShelf.replay enumShelf_makes

/-- The changes of the helpers of a schema, made on the list of them. -/
def helperReplay : ListReplay HelperDef := helperShelf.replay helperShelf_makes

/-- The changes of the tables of a schema, made on the list of them. -/
def tableReplay : ListReplay TableDef := tableShelf.replay tableShelf_makes

theorem Schema.merge_append (s : Schema) (cs ds : List Change) :
    s.merge (cs ++ ds) = s.merge cs >>= fun t => t.merge ds := by
  rw [merge, List.foldlM_append]
  rfl

/-- **The changes that are let through are made kind by kind.** -/
theorem Schema.merge_filter {p : Change → Bool} {old new s m : Schema} :
    s.merge ((old.changesTo new).filter p) = .ok m ↔ ∃ enums helpers tables,
      ((enumShelf.changes old.enums new.enums).filter p).foldlM enumReplay.make s.enums =
        .ok enums ∧
      ((helperShelf.changes old.helpers new.helpers).filter p).foldlM helperReplay.make s.helpers =
        .ok helpers ∧
      ((tableShelf.changes old.tables new.tables).filter p).foldlM tableReplay.make s.tables =
        .ok tables ∧
      m = { s with enums, helpers, tables } := by
  rw [changesTo_eq, List.filter_append, List.filter_append, merge_append, merge_append,
    enumShelf_makes.merge_filter]
  simp only [bind_eq_ok, helperShelf_makes.merge_filter, tableShelf_makes.merge_filter,
    map_eq_ok_iff]
  constructor
  · rintro ⟨_, ⟨_, ⟨enums, he, rfl⟩, helpers, hh, rfl⟩, tables, ht, rfl⟩
    exact ⟨enums, helpers, tables, he, hh, ht, rfl⟩
  · rintro ⟨enums, helpers, tables, he, hh, ht, rfl⟩
    exact ⟨_, ⟨_, ⟨enums, he, rfl⟩, helpers, hh, rfl⟩, tables, ht, rfl⟩

end SchemaLoom
