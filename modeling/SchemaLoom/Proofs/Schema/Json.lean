/-
  What the JSON form of a schema tells of it.

  A default that is a call has the same JSON form as the text that spells the
  call.  Everything else of a schema shows in its form, although what is empty
  is left out.  So two schemas have the same form exactly if they are the same
  with their calls spelled out (`Schema.spelledOut`).

  * `DefaultValue.toJson_eq_iff`, `Column.toJson_eq_iff`, `HelperDef.toJson_eq_iff`,
    `TableDef.toJson_eq_iff`: the parts;
  * `Schema.compact_eq_iff`: the whole, and its text;
  * `Schema.within_toJson`: how deep the form nests.
-/
import SchemaLoom.Proofs.Json.Compact
import SchemaLoom.Proofs.Json.Lawful
import SchemaLoom.Schema.Json

namespace SchemaLoom

open Json (Value Within within_array within_strings)

/-! ## Calls that are spelled out -/

/-- The default, a call as the text that spells it. -/
def DefaultValue.spelledOut : DefaultValue → DefaultValue
  | .call function => .text (callText function)
  | d => d

/-- The options with their default spelled out. -/
def ColumnOptions.spelledOut (o : ColumnOptions) : ColumnOptions :=
  { o with default := o.default.map DefaultValue.spelledOut }

/-- The column with its default spelled out. -/
def Column.spelledOut (c : Column) : Column := { c with options := c.options.spelledOut }

/-- The helper with all defaults spelled out. -/
def HelperDef.spelledOut (h : HelperDef) : HelperDef :=
  { h with columns := h.columns.map Column.spelledOut }

/-- The table with all defaults spelled out. -/
def TableDef.spelledOut (t : TableDef) : TableDef :=
  { t with columns := t.columns.map Column.spelledOut }

/-- The schema with all defaults spelled out. -/
def Schema.spelledOut (s : Schema) : Schema :=
  { s with
    helpers := s.helpers.map HelperDef.spelledOut
    tables := s.tables.map TableDef.spelledOut }

/-! ## Functions that tell the same apart -/

section
variable {α β γ : Type} {f : α → β} {g : α → γ}

theorem optionMap_eq_iff (h : ∀ a b, f a = f b ↔ g a = g b) (a b : Option α) :
    a.map f = b.map f ↔ a.map g = b.map g := by
  cases a <;> cases b <;> simp [h]

theorem listMap_eq_iff (h : ∀ a b, f a = f b ↔ g a = g b) (as bs : List α) :
    as.map f = bs.map f ↔ as.map g = bs.map g := by
  induction as generalizing bs with
  | nil => cases bs <;> simp
  | cons a as ih =>
    cases bs with
    | nil => simp
    | cons b bs => simp only [List.map_cons, List.cons.injEq, h, ih]

end

/-! ## Members -/

section
variable {name key : String} {v : Option Value} {b : Bool} {names names' : List String}

theorem lookup_optionalMember :
    (optionalMember name v).lookup key = if key = name then v else none := by
  cases v with
  | none => simp [optionalMember]
  | some v =>
    by_cases h : key = name
    · simp [optionalMember, h]
    · simp [optionalMember, List.lookup_cons, h, beq_eq_false_iff_ne.2 h]

theorem flagMember_eq :
    flagMember name b = optionalMember name (if b then some (.bool true) else none) := by
  cases b <;> rfl

theorem namesMember_eq : namesMember name names =
    optionalMember name (if names = [] then none else some (.strings names)) := by
  cases names <;> rfl

theorem strings_inj : Value.strings names = Value.strings names' ↔ names = names' := by
  rw [Value.strings, Value.strings, Value.array.injEq]
  exact List.map_inj_right fun _ _ => Value.string.inj

/-- An empty list that is left out is told from every other. -/
theorem names_eq_of_member (h : (if names = [] then none else some (Value.strings names)) =
    if names' = [] then none else some (.strings names')) : names = names' := by
  split at h
  next hn =>
    split at h
    next hn' => rw [hn, hn']
    next => cases h
  next =>
    split at h
    next => cases h
    next => exact strings_inj.1 (Option.some.inj h)

theorem flag_eq_of_member {b b' : Bool} (h : (if b then some (Value.bool true) else none) =
    if b' then some (.bool true) else none) : b = b' := by
  cases b <;> cases b' <;> simp_all

section
variable {height : Nat}

theorem within_optionalMember (hv : ∀ x ∈ v, Within height x) :
    ∀ m ∈ optionalMember name v, Within height m.2 := by
  cases v with
  | none => simp [optionalMember]
  | some x => simpa [optionalMember] using hv x rfl

theorem within_optionalMap {α : Type} {f : α → Value} (hf : ∀ a, Within height (f a))
    (o : Option α) : ∀ m ∈ optionalMember name (o.map f), Within height m.2 := by
  refine within_optionalMember fun x hx => ?_
  obtain ⟨a, -, rfl⟩ := Option.map_eq_some_iff.1 hx
  exact hf a

theorem within_flagMember : ∀ m ∈ flagMember name b, Within height m.2 := by
  rw [flagMember_eq]
  refine within_optionalMember fun x hx => ?_
  cases b with
  | false => cases hx
  | true =>
    cases hx
    exact .bool true

theorem within_namesMember : ∀ m ∈ namesMember name names, Within (height + 1) m.2 := by
  rw [namesMember_eq]
  refine within_optionalMember fun x hx => ?_
  split at hx
  · cases hx
  · cases hx
    exact within_strings names

end

end

/-! ## Defaults -/

theorem DefaultValue.toJson_eq_iff (c d : DefaultValue) :
    c.toJson = d.toJson ↔ c.spelledOut = d.spelledOut := by
  cases c <;> cases d <;> simp [toJson, spelledOut, Value.integer, Int64.toInt_inj]

theorem DefaultValue.within_toJson (d : DefaultValue) {height : Nat} : Within height d.toJson := by
  cases d with
  | boolean b => exact .bool b
  | integer i =>
    have h1 := i.le_toInt
    have h2 := i.toInt_lt
    have hmax : Json.Reader.maxUnsigned = 0xffffffffffffffff := rfl
    exact .leaf (.integer (by omega) (by omega))
  | call f => exact .string _
  | text s => exact .string s

theorem DefaultValue.spelledOut_spelledOut (d : DefaultValue) :
    d.spelledOut.spelledOut = d.spelledOut := by
  cases d <;> rfl

/-! ## Columns -/

theorem ColumnReference.toJson_injective : Function.Injective ColumnReference.toJson := by
  rintro ⟨table, column⟩ ⟨table', column'⟩ h
  simpa [toJson] using h

theorem ColumnReference.within_toJson (r : ColumnReference) {height : Nat} :
    Within (height + 1) r.toJson :=
  .object (by simp [Within.string])

theorem nat_toNat_injective : Function.Injective fun n : UInt32 => Value.nat n.toNat := by
  intro m n h
  have hn : (m.toNat : Int) = n.toNat := Json.Number.integer.inj (Value.number.inj h)
  exact UInt32.toNat_inj.1 (Int.ofNat_inj.1 hn)

namespace ColumnOptions

variable (o p : ColumnOptions)

theorem spelledOut_spelledOut : o.spelledOut.spelledOut = o.spelledOut := by
  rw [spelledOut, spelledOut, Option.map_map]
  congr 2
  funext d
  exact d.spelledOut_spelledOut

theorem members_spelledOut : o.spelledOut.members = o.members := by
  have hd : (o.default.map DefaultValue.spelledOut).map DefaultValue.toJson =
      o.default.map DefaultValue.toJson := by
    refine (optionMap_eq_iff DefaultValue.toJson_eq_iff _ _).2 ?_
    cases o.default with
    | none => rfl
    | some d => exact congrArg some d.spelledOut_spelledOut
  rw [members, members, spelledOut, hd]

/-- Each option shows in the members, a call in its default as a text. -/
theorem members_eq_iff : o.members = p.members ↔ o.spelledOut = p.spelledOut := by
  constructor
  · intro h
    have hlookup : ∀ key, o.members.lookup key = p.members.lookup key := fun key => by rw [h]
    simp only [members, flagMember_eq, List.lookup_append, lookup_optionalMember] at hlookup
    have hnotNull := hlookup "notNull"
    have hprimaryKey := hlookup "primaryKey"
    have hdefault := hlookup "default"
    have hlength := hlookup "length"
    have henum := hlookup "enumValues"
    have hreferences := hlookup "references"
    simp only [reduceIte, String.reduceEq, Option.or_none, Option.none_or, Option.or_self]
      at hnotNull hprimaryKey hdefault hlength henum hreferences
    have hdefault := (optionMap_eq_iff DefaultValue.toJson_eq_iff _ _).1 hdefault
    have hlength := Option.map_injective nat_toNat_injective hlength
    have henum := Option.map_injective (fun _ _ => Value.string.inj) henum
    have hreferences := Option.map_injective ColumnReference.toJson_injective hreferences
    rw [spelledOut, spelledOut, flag_eq_of_member hnotNull, flag_eq_of_member hprimaryKey,
      hdefault, hlength, henum, hreferences]
  · intro h
    rw [← o.members_spelledOut, h, members_spelledOut]

theorem within_members {height : Nat} : ∀ m ∈ o.members, Within (height + 1) m.2 := by
  simp only [members, List.forall_mem_append]
  refine ⟨⟨⟨⟨⟨within_flagMember, within_flagMember⟩, ?_⟩, ?_⟩, ?_⟩, ?_⟩
  · exact within_optionalMap (fun d => d.within_toJson) o.default
  · refine within_optionalMap (fun n => .natural ?_) o.length
    have hn := n.toNat_lt
    have hmax : Json.Reader.maxUnsigned = 0xffffffffffffffff := rfl
    omega
  · exact within_optionalMap .string o.enumName
  · exact within_optionalMap (fun r => r.within_toJson) o.references

theorem spelledOut_eq_empty : o.spelledOut = {} ↔ o = {} := by
  constructor
  · intro h
    obtain ⟨notNull, primaryKey, default, length, enumName, references⟩ := o
    cases default with
    | none => exact h
    | some d => cases h
  · rintro rfl
    rfl

end ColumnOptions

namespace Column

variable (c d : Column)

/-- The options of a column, left out if they are empty. -/
def optionsJson? : Option Value :=
  if c.options = {} then none else some (.object c.options.members)

theorem optionsJson?_eq_iff :
    c.optionsJson? = d.optionsJson? ↔ c.options.spelledOut = d.options.spelledOut := by
  rw [optionsJson?, optionsJson?, ← ColumnOptions.members_eq_iff]
  have hempty : ∀ o : ColumnOptions, o.members = ({} : ColumnOptions).members → o = {} := by
    intro o h
    exact o.spelledOut_eq_empty.1 ((o.members_eq_iff {}).1 h)
  split
  next hc =>
    rw [hc]
    split
    next hd => simp [hd]
    next hd => exact iff_of_false nofun fun h => hd (hempty _ h.symm)
  next hc =>
    split
    next hd => exact iff_of_false nofun fun h => hc (hempty _ (hd ▸ h))
    next hd => simp

theorem spelledOut_spelledOut : c.spelledOut.spelledOut = c.spelledOut := by
  rw [spelledOut, spelledOut, ColumnOptions.spelledOut_spelledOut]

theorem toJson_spelledOut : c.spelledOut.toJson = c.toJson := by
  have h : c.spelledOut.optionsJson? = c.optionsJson? :=
    (optionsJson?_eq_iff _ _).2 c.options.spelledOut_spelledOut
  rw [toJson, toJson]
  exact congrArg (fun options => Value.object (("name", .string c.name) ::
    (optionalMember "type" (c.typeName.map .string) ++ optionalMember "options" options))) h

/-- A column shows in its form, a call in its default as a text. -/
theorem toJson_eq_iff : c.toJson = d.toJson ↔ c.spelledOut = d.spelledOut := by
  constructor
  · intro h
    obtain ⟨hname, hrest⟩ := List.cons.inj (Value.object.inj h)
    have hlookup := fun key => congrArg (List.lookup key) hrest
    simp only [List.lookup_append, lookup_optionalMember] at hlookup
    have htype := hlookup "type"
    have hoptions := hlookup "options"
    simp only [reduceIte, String.reduceEq, Option.or_none, Option.none_or] at htype hoptions
    have hname := Value.string.inj (Prod.mk.inj hname).2
    have htype := Option.map_injective (fun _ _ => Value.string.inj) htype
    have hoptions := (optionsJson?_eq_iff c d).1 hoptions
    rw [spelledOut, spelledOut, hname, htype, hoptions]
  · intro h
    rw [← c.toJson_spelledOut, h, toJson_spelledOut]

theorem within_toJson {height : Nat} : Within (height + 3) c.toJson := by
  refine .object (List.forall_mem_cons.2 ⟨.string _, List.forall_mem_append.2 ⟨?_, ?_⟩⟩)
  · exact within_optionalMap .string c.typeName
  · refine within_optionalMember fun x hx => ?_
    split at hx
    · cases hx
    · cases hx
      exact .object c.options.within_members

end Column

/-! ## Entities -/

theorem EnumDef.toJson_injective : Function.Injective EnumDef.toJson := by
  rintro ⟨name, values⟩ ⟨name', values'⟩ h
  simp only [toJson, Value.object.injEq, List.cons.injEq, Prod.mk.injEq, true_and, and_true,
    Value.string.injEq, strings_inj] at h
  rw [h.1, h.2]

theorem EnumDef.within_toJson (e : EnumDef) {height : Nat} : Within (height + 2) e.toJson :=
  .object (by simp [Within.string, within_strings])

/-- A helper shows in its form, calls in its defaults as texts. -/
theorem HelperDef.toJson_eq_iff (h k : HelperDef) :
    h.toJson = k.toJson ↔ h.spelledOut = k.spelledOut := by
  obtain ⟨name, columns⟩ := h
  obtain ⟨name', columns'⟩ := k
  simp only [toJson, spelledOut, Value.object.injEq, List.cons.injEq, Prod.mk.injEq, true_and,
    and_true, Value.string.injEq, Value.array.injEq, HelperDef.mk.injEq,
    listMap_eq_iff Column.toJson_eq_iff]

theorem HelperDef.within_toJson (h : HelperDef) {height : Nat} : Within (height + 5) h.toJson := by
  have hcolumns : Within (height + 4) (.array (h.columns.map Column.toJson)) :=
    within_array fun c _ => c.within_toJson
  exact .object (by simp [Within.string, hcolumns])

namespace TableDef

variable (t u : TableDef)

theorem toJson_spelledOut : t.spelledOut.toJson = t.toJson := by
  have hcolumns := (listMap_eq_iff Column.toJson_eq_iff (t.columns.map Column.spelledOut)
    t.columns).2 (by simp [Column.spelledOut_spelledOut])
  rw [toJson, toJson, spelledOut, hcolumns]

/-- A table shows in its form, calls in its defaults as texts. -/
theorem toJson_eq_iff : t.toJson = u.toJson ↔ t.spelledOut = u.spelledOut := by
  constructor
  · intro h
    obtain ⟨hname, hrest⟩ := List.cons.inj (Value.object.inj h)
    have hlookup := fun key => congrArg (List.lookup key) hrest
    simp only [List.lookup_append, lookup_optionalMember, namesMember_eq,
      List.lookup_cons] at hlookup
    have hdbName := hlookup "dbName"
    have hcolumns := hlookup "columns"
    have hhelpers := hlookup "helperReferences"
    have hkey := hlookup "compositePrimaryKey"
    simp only [reduceIte, String.reduceBEq, String.reduceEq, Option.or_none, Option.none_or,
      Option.some.injEq, Value.array.injEq] at hdbName hcolumns hhelpers hkey
    have hname := Value.string.inj (Prod.mk.inj hname).2
    have hdbName := Option.map_injective (fun _ _ => Value.string.inj) hdbName
    have hcolumns := (listMap_eq_iff Column.toJson_eq_iff _ _).1 hcolumns
    rw [spelledOut, spelledOut, hname, hdbName, hcolumns, names_eq_of_member hhelpers,
      names_eq_of_member hkey]
  · intro h
    rw [← t.toJson_spelledOut, h, toJson_spelledOut]

theorem within_toJson {height : Nat} : Within (height + 5) t.toJson := by
  refine .object (List.forall_mem_cons.2 ⟨.string _, List.forall_mem_append.2 ⟨?_, ?_⟩⟩)
  · exact within_optionalMap .string t.dbName
  · refine List.forall_mem_cons.2 ⟨within_array fun c _ => c.within_toJson, ?_⟩
    exact List.forall_mem_append.2 ⟨within_namesMember, within_namesMember⟩

end TableDef

/-! ## Schemas -/

namespace Schema

variable {r s : Schema}

/-- The form of a schema nests seven levels at most. -/
theorem within_toJson (s : Schema) : Within 7 s.toJson := by
  refine .object ?_
  simp only [List.forall_mem_cons]
  exact ⟨.string _, within_array fun e _ => e.within_toJson,
    within_array fun h _ => h.within_toJson, within_array fun t _ => t.within_toJson,
    within_optionalMap .bool s.overwrite⟩

theorem exact_toJson (s : Schema) : s.toJson.Exact := s.within_toJson.exact

/-- A schema shows in its form, calls in its defaults as texts. -/
theorem toJson_eq_iff : r.toJson = s.toJson ↔ r.spelledOut = s.spelledOut := by
  obtain ⟨outputDir, enums, helpers, tables, overwrite⟩ := r
  obtain ⟨outputDir', enums', helpers', tables', overwrite'⟩ := s
  have henums : enums.map EnumDef.toJson = enums'.map EnumDef.toJson ↔ enums = enums' :=
    List.map_inj_right fun _ _ h => EnumDef.toJson_injective h
  have hoverwrite : optionalMember "overwrite" (overwrite.map .bool) =
      optionalMember "overwrite" (overwrite'.map .bool) ↔ overwrite = overwrite' := by
    cases overwrite <;> cases overwrite' <;> simp [optionalMember]
  simp only [toJson, spelledOut, Value.object.injEq, List.cons.injEq, Prod.mk.injEq, true_and,
    Value.string.injEq, Value.array.injEq, Schema.mk.injEq, henums, hoverwrite,
    listMap_eq_iff HelperDef.toJson_eq_iff, listMap_eq_iff TableDef.toJson_eq_iff]

/-- **Two schemas have the same text exactly if they are the same but for calls
    in defaults and the texts that spell them.** -/
theorem compact_eq_iff : r.toJson.compact = s.toJson.compact ↔ r.spelledOut = s.spelledOut := by
  rw [← toJson_eq_iff]
  constructor
  · exact fun h => r.exact_toJson.eq_of_compact s.exact_toJson h
  · exact fun h => by rw [h]

end Schema

end SchemaLoom
