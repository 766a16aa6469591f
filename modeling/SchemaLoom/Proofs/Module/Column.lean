/-
  Columns of generated modules are read back in canonical form.

  A written column is a chain of calls (`Column.chain`).  An enum is told from
  the scalar types by its name, so a column whose enum is named like the
  constructor of a type is read as a column of that type (`Column.reread`), and
  every other column in canonical form.

  * `Column.interpret_chain`: reading the chain yields that form;
  * `Column.interpret_refused`: a column of an enum named `pgEnum` is not read.
-/
import Mathlib.Data.List.Basic
import SchemaLoom.Proofs.Module.Generation
import SchemaLoom.Proofs.Module.Imports
import SchemaLoom.Proofs.Source.Expression

namespace SchemaLoom

open Source (Argument Call Chain Token Spells)

/-! ## Columns as chains -/

/-- The argument that a default is written as. -/
def defaultArgument (isEnum : Bool) : DefaultValue → Argument
  | .boolean b => .bool b
  | .integer i => .integer i
  | .call function => .sql (function ++ "()")
  | .text s => .string (if isEnum then Text.pascalCase s else s)

/-- The configuration that a constructor is given. -/
def configArgument? : ColumnType → Option UInt32 → Option Argument
  | .string, some length => some (.object [("length", .integer (Int64.ofNat length.toNat))])
  | .bigint, _ => some (.object [("mode", .string "number")])
  | _, _ => none

/-- The call of a constructor. -/
def constructorCall (name : String) : ColumnKind → Call
  | .enumeration enumName => ⟨enumName, [.string name], 0⟩
  | .scalar type length =>
    ⟨type.constructor, .string name :: (configArgument? type length).toList, 0⟩

/-- The calls that qualify a column. -/
def qualifierCalls (o : ColumnOptions) : List Call :=
  (if o.primaryKey then [⟨"primaryKey", [], 0⟩] else []) ++
  (if o.notNull then [⟨"notNull", [], 0⟩] else []) ++
  (o.default.map fun d => ⟨"default", [defaultArgument o.enumName.isSome d], 0⟩).toList ++
  (o.references.map fun r =>
    ⟨"references", [.columnRef (tableVariable r.table) r.column], 0⟩).toList

/-- The chain that declares a column of a kind. -/
def Column.chain (c : Column) (kind : ColumnKind) : Chain :=
  ⟨constructorCall c.name kind, qualifierCalls c.options⟩

theorem text_defaultArgument (isEnum : Bool) (d : DefaultValue) :
    (defaultArgument isEnum d).text = defaultText isEnum d := by
  cases d with
  | call function =>
    rw [defaultArgument, Argument.text, defaultText, String.append_assoc, String.append_assoc,
      String.append_assoc]
    rfl
  | _ => rw [defaultArgument, Argument.text, defaultText]

/-- A length is written as an integer. -/
theorem integerText_length (n : UInt32) :
    Json.integerText (Int64.ofNat n.toNat).toInt = n.toNat.repr := by
  have hn := n.toNat_lt
  rw [Int64.toInt_ofNat_of_lt (by omega), Json.integerText, if_neg (by omega), Int.natAbs_natCast]
  rfl

theorem text_configArgument? (type : ColumnType) (length : Option UInt32) :
    (configArgument? type length).map Argument.text = configText? type length := by
  have hmode : (Argument.object [("mode", .string "number")]).text =
      "\x7b mode: 'number' \x7d" := by
    simp only [Argument.text, List.map_cons, List.map_nil]
    decide
  cases type <;> cases length <;> simp only [configArgument?, configText?, Option.map, hmode]
  next n =>
    simp only [Argument.text, List.map_cons, List.map_nil, integerText_length, Option.some.injEq]
    refine String.toList_injective ?_
    simp [toString]

theorem text_constructorCall (name : String) (kind : ColumnKind) :
    (constructorCall name kind).text = constructorText name kind := by
  cases kind with
  | enumeration e => simp [constructorCall, constructorText, Call.text, Argument.text]
  | scalar type length =>
    rw [constructorText, ← text_configArgument?]
    cases hc : configArgument? type length with
    | none => simp [constructorCall, Call.text, Argument.text, hc]
    | some a => simp [constructorCall, Call.text, Argument.text, hc, String.append_assoc]

theorem text_qualifierCalls (o : ColumnOptions) :
    String.join ((qualifierCalls o).map fun c => "." ++ c.text) = qualifiersText o := by
  rw [qualifierCalls, qualifiersText]
  simp only [List.map_append, String.join_append]
  congr 1
  · congr 1
    · congr 1
      · split <;> rfl
      · split <;> rfl
    · cases o.default with
      | none => rfl
      | some d =>
        refine String.toList_injective ?_
        simp [Call.text, text_defaultArgument]
  · cases o.references with
    | none => rfl
    | some r =>
      refine String.toList_injective ?_
      simp [Call.text, Argument.text]

/-- A column is written as its chain. -/
theorem Column.text_chain (c : Column) (kind : ColumnKind) :
    (c.chain kind).text = constructorText c.name kind ++ qualifiersText c.options := by
  rw [chain, Chain.text, text_constructorCall, text_qualifierCalls]

/-! ## Written columns are proper -/

namespace Column

/-- A default that is a call names a function. -/
def CallsFunction (c : Column) : Prop :=
  ∀ f, c.options.default = some (.call f) → isFunctionName f.toList = true

/-- The reader tells the function of a default, and the enum of a column from
    the scalar types. -/
structure Readable (c : Column) : Prop where
  function : c.CallsFunction
  enumName : ∀ e, c.options.enumName = some e → e ∉ ColumnType.all.map ColumnType.constructor

/-- The enum of the column is not named like the call that declares enums. -/
def Legible (c : Column) : Prop := c.options.enumName ≠ some ColumnType.enum.constructor

theorem Readable.legible {c : Column} (h : c.Readable) : c.Legible :=
  fun he => h.enumName _ he (by decide)

end Column

theorem isIdentifier_of_isBindingName {name : String} (h : Text.isBindingName name = true) :
    Text.isIdentifier name = true := by
  rw [Text.isBindingName, Bool.and_eq_true] at h
  exact h.1

theorem isIdentifier_constructor (type : ColumnType) :
    Text.isIdentifier type.constructor = true := by
  cases type <;> decide

/-- The name of a function holds none of the characters around it. -/
theorem backtick_notMem_of_isFunctionName {cs : List Char} (h : isFunctionName cs = true) :
    '\x60' ∉ cs := by
  cases cs with
  | nil => simp
  | cons c rest =>
    rw [isFunctionName, Bool.and_eq_true, List.all_eq_true] at h
    intro hm
    have := h.2 _ hm
    revert this
    decide

theorem ColumnType.ofName?_name (type : ColumnType) : ofName? type.name = some type := by
  cases type <;> rfl

theorem ColumnType.name_of_ofName? {s : String} {type : ColumnType} (h : ofName? s = some type) :
    type.name = s := by
  simpa using List.find?_some h

theorem ColumnType.ofConstructor?_constructor (type : ColumnType) :
    ofConstructor? type.constructor = some type := by
  cases type <;> rfl

namespace Column

/-- What a column of a kind holds. -/
theorem kind_cases {c : Column} {kind : ColumnKind} (h : c.kind = .ok kind) :
    (∃ e, c.options.enumName = some e ∧ kind = .enumeration e) ∨
      ∃ type, c.options.enumName = none ∧ c.typeName = some type.name ∧ type ≠ .enum ∧
        kind = .scalar type (if type.supportsLength then c.options.length else none) := by
  rw [Column.kind] at h
  split at h
  · cases h
  split at h
  next e he => exact .inl ⟨e, he, (Except.ok.inj h).symm⟩
  next => cases h
  next typeName he ht =>
    split at h
    next => cases h
    next => cases h
    next type hne hf =>
      exact .inr ⟨type, he, by rw [ht, ColumnType.name_of_ofName? hf], by simpa using hne,
        (Except.ok.inj h).symm⟩

theorem proper_configArgument? {type : ColumnType} {length : Option UInt32} {a : Argument}
    (h : configArgument? type length = some a) : a.Proper := by
  unfold configArgument? at h
  split at h <;> cases h <;>
    simp [Argument.Proper, show Text.isIdentifier "length" = true by decide,
    show Text.isIdentifier "mode" = true by decide]

theorem proper_constructorCall {c : Column} {kind : ColumnKind} (hk : c.kind = .ok kind)
    (hi : c.checkIdentifiers = .ok ()) : (constructorCall c.name kind).Proper := by
  have hn := checkIdentifiers_eq_ok_iff.1 hi
  rcases kind_cases hk with ⟨e, he, rfl⟩ | ⟨type, -, -, -, rfl⟩
  · have hb := hn (e, Text.isBindingName e) (by simp [unquotedNames, he])
    exact ⟨isIdentifier_of_isBindingName hb, by simp [constructorCall, Argument.Proper]⟩
  · refine ⟨isIdentifier_constructor type, ?_⟩
    intro a ha
    rcases List.mem_cons.1 ha with rfl | ha
    · simp [Argument.Proper]
    · exact proper_configArgument? (Option.mem_toList.1 ha)

theorem proper_qualifierCalls {c : Column} (hi : c.checkIdentifiers = .ok ())
    (hf : c.CallsFunction) :
    ∀ d ∈ qualifierCalls c.options, d.Proper := by
  have hn := checkIdentifiers_eq_ok_iff.1 hi
  intro d hd
  simp only [qualifierCalls, List.mem_append, Option.mem_toList, Option.map_eq_some_iff,
    List.mem_ite_nil_right, List.mem_singleton] at hd
  rcases hd with ((⟨-, rfl⟩ | ⟨-, rfl⟩) | ⟨v, hv, rfl⟩) | ⟨r, hr, rfl⟩
  · exact ⟨(by decide : Text.isIdentifier "primaryKey" = true), by simp⟩
  · exact ⟨(by decide : Text.isIdentifier "notNull" = true), by simp⟩
  · refine ⟨(by decide : Text.isIdentifier "default" = true), ?_⟩
    rw [List.forall_mem_singleton]
    cases v with
    | call f =>
      have hf := backtick_notMem_of_isFunctionName (hf f hv)
      simpa [defaultArgument, Argument.Proper] using hf
    | _ => simp [defaultArgument, Argument.Proper]
  · refine ⟨(by decide : Text.isIdentifier "references" = true), ?_⟩
    have ht := hn (r.table, Text.isBindingName (tableVariable r.table))
      (by simp [unquotedNames, hr])
    have hc := hn (r.column, Text.isIdentifier r.column) (by simp [unquotedNames, hr])
    rw [List.forall_mem_singleton, Argument.Proper]
    exact ⟨isIdentifier_of_isBindingName ht, hc⟩

/-- The names in the chain of a written column are identifiers. -/
theorem proper_chain {c : Column} {kind : ColumnKind} (hk : c.kind = .ok kind)
    (hi : c.checkIdentifiers = .ok ()) (hf : c.CallsFunction) : (c.chain kind).Proper :=
  ⟨proper_constructorCall hk hi, proper_qualifierCalls hi hf⟩

end Column

/-! ## Reading the chain -/

/-- Blank characters are no part of the name of a function. -/
theorem isBlank_eq_false_of_functionName {c : Char} (h : c.isAlphanum || c == '_') :
    Text.isBlank c = false := by
  rw [Bool.eq_false_iff]
  intro hb
  obtain ⟨r, hr, h1, h2⟩ := Source.exists_run_of_inRuns hb
  have hruns : ∀ r ∈ Text.blankRuns, r.last ≤ 32 ∨ 133 ≤ r.first := by decide
  have hr := hruns r hr
  have hc : 48 ≤ c.toNat ∧ c.toNat ≤ 122 := by
    delta Char.isAlphanum Char.isAlpha Char.isUpper Char.isLower Char.isDigit at h
    simp only [Bool.or_eq_true, Bool.and_eq_true, decide_eq_true_eq, beq_iff_eq, ge_iff_le,
      UInt32.le_iff_toNat_le] at h
    rcases h with ((h | h) | h) | rfl
    · exact ⟨Nat.le_trans (by decide) h.1, Nat.le_trans h.2 (by decide)⟩
    · exact ⟨Nat.le_trans (by decide) h.1, Nat.le_trans h.2 (by decide)⟩
    · exact ⟨Nat.le_trans (by decide) h.1, Nat.le_trans h.2 (by decide)⟩
    · decide
  omega

/-- A text that is not blank at its ends is not trimmed. -/
theorem trim_eq_self {cs : List Char} (hh : ∀ c ∈ cs.head?, Text.isBlank c = false)
    (hl : ∀ c ∈ cs.reverse.head?, Text.isBlank c = false) : Text.trim cs = cs := by
  have hdrop : ∀ ds : List Char, (∀ c ∈ ds.head?, Text.isBlank c = false) →
      ds.dropWhile Text.isBlank = ds := by
    intro ds hds
    have hnil : ([] : List Char).all Text.isBlank = true := rfl
    exact Source.dropWhile_append_stops hnil hds
  rw [Text.trim, hdrop cs hh, hdrop _ hl, List.reverse_reverse]

/-- The function of a call is told from its template. -/
theorem templateCall?_append {f : String} (h : isFunctionName f.toList = true) :
    Source.templateCall? (f ++ "()") = some f := by
  have ht : Text.trim (f ++ "()").toList = (f ++ "()").toList := by
    refine trim_eq_self (fun c hc => ?_) (fun c hc => ?_)
    · cases hf : f.toList with
      | nil => simp [hf, isFunctionName] at h
      | cons d rest =>
        simp only [hf, isFunctionName, Bool.and_eq_true, List.all_cons] at h
        simp only [String.toList_append, hf, List.cons_append, List.head?_cons,
          Option.mem_some_iff] at hc
        exact hc ▸ isBlank_eq_false_of_functionName h.2.1
    · have hr : ')' = c := by simpa using hc
      exact hr ▸ (by decide)
  have hs : "()".toList.isSuffixOf? (f ++ "()").toList = some f.toList :=
    List.isSuffixOf?_eq_some_iff_append_eq.2 String.toList_append.symm
  rw [Source.templateCall?, ht, DefaultValue.calledBy?, hs]
  simp [h]

/-- A value that is written in PascalCase is read back in canonical form. -/
theorem snakeCase_pascalCase (s : String) :
    Text.snakeCase (Text.pascalCase s) = Text.canonicalValue s := by
  rw [Text.snakeCase, Text.pascalCase, String.toList_ofList, Text.canonicalValue]

open Source

/-! Lines matter in faults only. -/

theorem readDefault_of_unlined {isEnum : Bool} {d : Call} {v : Argument} {r : DefaultValue}
    (h : readDefault isEnum d.unlined v = .ok r) : readDefault isEnum d v = .ok r := by
  cases v with
  | sql body =>
    rw [readDefault] at h ⊢
    cases hf : templateCall? body with
    | none => simp only [hf, Call.refuse] at h; cases h
    | some f => simpa only [hf] using h
  | object | columnRef => cases h
  | _ => exact h

theorem qualify_of_unlined {c r : Column} {d : Call} (h : qualify c d.unlined = .ok r) :
    qualify c d = .ok r := by
  obtain ⟨name, arguments, line⟩ := d
  rw [qualify, Call.unlined] at h
  split at h
  next hn ha => cases hn; cases ha; exact h
  next hn ha => cases hn; cases ha; exact h
  next v hn ha =>
    cases hn
    cases ha
    cases hv : readDefault c.isEnum ⟨"default", [v], 0⟩ v with
    | error e => rw [hv] at h; cases h
    | ok d =>
      rw [hv] at h
      have := readDefault_of_unlined (d := ⟨"default", [v], line⟩) hv
      simp only [qualify, this]
      exact h
  next hn ha => cases hn; cases ha; exact h
  next => cases h

theorem configure_of_unlined {c r : Column} {d : Call} {config : List (String × Argument)}
    (h : configure d.unlined c config = .ok r) : configure d c config = .ok r := by
  induction config generalizing c with
  | nil => exact h
  | cons e config ih =>
    obtain ⟨key, value⟩ := e
    unfold configure at h ⊢
    split at h
    next length =>
      split at h
      next hs =>
        split at h
        next hl =>
          rw [if_pos hs, if_pos hl]
          exact ih h
        · cases h
      · cases h
    next => exact ih h
    next => cases h

theorem readConstructor_of_unlined {c r : Column} {d : Call}
    (h : readConstructor c d.unlined = .ok r) : readConstructor c d = .ok r := by
  obtain ⟨name, arguments, line⟩ := d
  rw [readConstructor, Call.unlined] at h
  split at h
  next ha => cases ha; exact h
  next ha => cases ha; exact configure_of_unlined (d := ⟨name, _, line⟩) h
  next => cases h

theorem constructed_of_unlined {name : String} {r : Column} {d : Call}
    (h : constructed name d.unlined = .ok r) : constructed name d = .ok r := by
  rw [constructed, Call.unlined] at h
  rw [constructed]
  split at h
  next => cases h
  next hn => simpa only [hn] using h
  next hn => simpa only [hn] using h

theorem foldlM_qualify_of_unlined {c r : Column} {ds : List Call}
    (h : (ds.map Call.unlined).foldlM qualify c = .ok r) : ds.foldlM qualify c = .ok r := by
  induction ds generalizing c with
  | nil => exact h
  | cons d ds ih =>
    rw [List.map_cons, List.foldlM_cons, bind_eq_ok] at h
    obtain ⟨c', hc, h⟩ := h
    rw [List.foldlM_cons, bind_eq_ok]
    exact ⟨c', qualify_of_unlined hc, ih h⟩

theorem interpret_of_unlined {name : String} {d : Chain} {r : Column}
    (h : interpret name d.unlined = .ok r) : interpret name d = .ok r := by
  rw [interpret, bind_eq_ok] at h ⊢
  obtain ⟨c₁, h₁, h⟩ := h
  obtain ⟨c₂, h₂, h⟩ := bind_eq_ok.1 h
  exact ⟨c₁, constructed_of_unlined h₁,
    bind_eq_ok.2 ⟨c₂, readConstructor_of_unlined h₂, foldlM_qualify_of_unlined h⟩⟩

namespace Column

/-- The default that is written: a value of an enum is in PascalCase. -/
def spelledDefault (isEnum : Bool) : DefaultValue → DefaultValue
  | .text s => .text (if isEnum then Text.pascalCase s else s)
  | d => d

/-- The default that is read where the column is taken for one of an enum or
    not. -/
def rereadDefault (taken isEnum : Bool) (d : DefaultValue) : DefaultValue :=
  match spelledDefault isEnum d with
  | .text s => .text (if taken then Text.snakeCase s else s)
  | d => d

/-- The column with the qualifiers that the options list. -/
def qualified (c : Column) (o : ColumnOptions) : Column :=
  { c with options := { c.options with
      primaryKey := o.primaryKey
      notNull := o.notNull
      default := o.default.map (rereadDefault c.isEnum o.enumName.isSome)
      references := o.references.map fun r => { r with table := tableVariable r.table } } }

/-- A default is read back from what it is written as. -/
theorem readDefault_defaultArgument (taken isEnum : Bool) {d : DefaultValue} (c : Call)
    (hf : ∀ f, d = .call f → isFunctionName f.toList = true) :
    readDefault taken c (defaultArgument isEnum d) = .ok (rereadDefault taken isEnum d) := by
  cases d with
  | call f =>
    rw [defaultArgument, readDefault, templateCall?_append (hf f rfl)]
    rfl
  | _ => rfl

/-- The default of an enum column is read in canonical form. -/
theorem rereadDefault_enum : rereadDefault true true = canonicalDefault := by
  funext d
  cases d with
  | text s =>
    rw [canonicalDefault, ← snakeCase_pascalCase, rereadDefault, spelledDefault, if_pos rfl]
    simp only [if_pos]
  | _ => rfl

/-- The default of a column of a type is read as it is. -/
theorem rereadDefault_scalar : rereadDefault false false = id := by
  funext d
  cases d <;> rfl

/-- The qualifiers of a column are read. -/
theorem foldlM_qualifierCalls {c : Column} {o : ColumnOptions}
    (hf : ∀ f, o.default = some (.call f) → isFunctionName f.toList = true)
    (hp : c.options.primaryKey = false) (hn : c.options.notNull = false)
    (hd : c.options.default = none) (hr : c.options.references = none) :
    (qualifierCalls o).foldlM qualify c = .ok (c.qualified o) := by
  obtain ⟨name, typeName, notNull, primaryKey, default, length, enumName, references⟩ := c
  cases hp
  cases hn
  cases hd
  cases hr
  simp only [qualifierCalls, List.foldlM_append, bind_eq_ok, qualified]
  refine ⟨⟨name, typeName, o.notNull, o.primaryKey, o.default.map
    (rereadDefault enumName.isSome o.enumName.isSome), length, enumName, none⟩,
    ⟨⟨name, typeName, o.notNull, o.primaryKey, none, length, enumName, none⟩,
    ⟨⟨name, typeName, false, o.primaryKey, none, length, enumName, none⟩, ?_, ?_⟩, ?_⟩, ?_⟩
  · cases o.primaryKey <;> rfl
  · cases o.notNull <;> rfl
  · cases ho : o.default with
    | none => rfl
    | some d =>
      have hv := readDefault_defaultArgument enumName.isSome o.enumName.isSome
        ⟨"default", [defaultArgument o.enumName.isSome d], 0⟩ fun f hd => hf f (hd ▸ ho)
      simp only [Option.map_some, Option.toList_some, List.foldlM_cons, List.foldlM_nil, qualify,
        isEnum, hv]
      rfl
  · cases o.references <;> rfl

/-- The arguments of the constructor of a scalar type tell the length. -/
theorem readConstructor_scalar (name : String) (type : ColumnType) {length : Option UInt32}
    (hl : type.supportsLength = false → length = none) :
    readConstructor (.ofType name type) (constructorCall name (.scalar type length)) =
      .ok ⟨name, some type.name, { length }⟩ := by
  cases hs : type.supportsLength with
  | false =>
    rw [hl hs]
    cases type <;> rfl
  | true =>
    obtain rfl : type = .string := by cases type <;> simp_all [ColumnType.supportsLength]
    cases length with
    | none => rfl
    | some n =>
      have hn := n.toNat_lt
      have ht : (ofType name .string).typeName = some ColumnType.string.name := rfl
      have hi : (Int64.ofNat n.toNat).toInt = n.toNat := Int64.toInt_ofNat_of_lt (by omega)
      simp only [readConstructor, constructorCall, configArgument?, Option.toList_some, configure]
      rw [if_pos ht, if_pos (by omega), hi, Int.toNat_natCast, UInt32.ofNat_toNat]
      rfl

/-- The scalar type that the enum of the column is named like. -/
def mistakenFor (c : Column) : Option ColumnType :=
  c.options.enumName.bind ColumnType.ofConstructor?

/-- The form in which a column is read back.  One whose enum is named like the
    constructor of a type becomes a column of that type. -/
def reread (c : Column) : Column :=
  match c.mistakenFor with
  | some type => (ofType c.name type).qualified c.options
  | none => c.canonical

/-- An enum that no type is named like is told from the types. -/
theorem Readable.mistakenFor_eq_none {c : Column} (hr : c.Readable) : c.mistakenFor = none := by
  cases he : c.options.enumName with
  | none => rw [mistakenFor, he, Option.bind_none]
  | some e =>
    rw [mistakenFor, he, Option.bind_some]
    refine List.find?_eq_none.2 fun t ht hte => hr.enumName e he ?_
    exact List.mem_map.2 ⟨t, ht, by simpa using hte⟩

theorem Readable.reread_eq {c : Column} (hr : c.Readable) : c.reread = c.canonical := by
  rw [reread, hr.mistakenFor_eq_none]

/-- An enum is taken for a type, unless it is told from all. -/
theorem constructed_enumeration {c : Column} {e : String} (he : c.options.enumName = some e)
    (hl : c.Legible) : constructed c.name (constructorCall c.name (.enumeration e)) =
      .ok (c.mistakenFor.elim (ofEnum c.name e) (ofType c.name)) := by
  rw [constructed, mistakenFor, he, Option.bind_some, constructorCall]
  cases hc : ColumnType.ofConstructor? e with
  | none => rfl
  | some type =>
    have hn : type ≠ .enum := by
      rintro rfl
      have h : ColumnType.enum.constructor = e := by simpa using List.find?_some hc
      exact hl (by rw [he, h])
    cases type <;> first | rfl | exact absurd rfl hn

/-- **The chain of a column is read**, as the canonical column unless its enum
    is mistaken for a type. -/
theorem interpret_chain {c : Column} {kind : ColumnKind} (hk : c.kind = .ok kind)
    (hf : c.CallsFunction) (hl : c.Legible) :
    interpret c.name (c.chain kind) = .ok c.reread := by
  rw [interpret, bind_eq_ok]
  rcases kind_cases hk with ⟨e, he, rfl⟩ | ⟨type, he, ht, hne, rfl⟩
  · refine ⟨_, constructed_enumeration he hl, bind_eq_ok.2 ⟨_, rfl, ?_⟩⟩
    rw [reread, chain]
    cases hm : c.mistakenFor with
    | some type => exact foldlM_qualifierCalls hf rfl rfl rfl rfl
    | none =>
      rw [Option.elim_none, foldlM_qualifierCalls hf rfl rfl rfl rfl]
      simp [canonical, canonicalType, isEnum, qualified, ofEnum, he, rereadDefault_enum]
  · have hc := ColumnType.ofConstructor?_constructor type
    have hn := ColumnType.ofName?_name type
    have hm : c.mistakenFor = none := by rw [mistakenFor, he, Option.bind_none]
    refine ⟨.ofType c.name type, ?_, bind_eq_ok.2 ⟨_, readConstructor_scalar c.name type ?_, ?_⟩⟩
    · simp only [constructed, chain, constructorCall, hc]
    · exact fun h => if_neg (by simp [h])
    rw [chain, foldlM_qualifierCalls hf rfl rfl rfl rfl, reread, hm]
    cases hs : type.supportsLength <;>
      simp [canonical, canonicalType, isEnum, qualified, he, ht, hn, hs, rereadDefault_scalar]

/-- **A column of an enum that is named like the call that declares enums is not
    read.** -/
theorem interpret_refused {c : Column} {kind : ColumnKind} {d : Chain} (hk : c.kind = .ok kind)
    (hl : ¬ c.Legible) (hd : d.unlined = (c.chain kind).unlined) :
    ∃ e, interpret c.name d = .error e := by
  have he : c.options.enumName = some ColumnType.enum.constructor := Classical.not_not.1 hl
  have hname : d.head.name = ColumnType.enum.constructor := by
    have h : d.head.unlined.name = (c.chain kind).head.unlined.name :=
      congrArg (fun d => d.head.name) hd
    rcases kind_cases hk with ⟨e, he', rfl⟩ | ⟨type, he', -, -, -⟩
    · rw [he] at he'
      cases he'
      exact h
    · rw [he] at he'
      cases he'
  have hc := ColumnType.ofConstructor?_constructor .enum
  exact ⟨_, by rw [interpret, constructed, hname, hc]; rfl⟩

/-- A chain is made without lines. -/
theorem unlined_chain (c : Column) (kind : ColumnKind) :
    (c.chain kind).unlined = c.chain kind := by
  rw [chain, Chain.unlined, Chain.mk.injEq]
  constructor
  · cases kind <;> rfl
  · simp only [qualifierCalls, List.map_append]
    cases c.options.primaryKey <;> cases c.options.notNull <;> cases c.options.default <;>
      cases c.options.references <;> rfl

/-! ## Written columns -/

/-- The tokens of a column. -/
def tokens (c : Column) : List Token :=
  match c.kind with
  | .ok kind => .identifier c.name :: .colon :: (c.chain kind).tokens
  | .error _ => []

/-- The text of a column. -/
def text (c : Column) : String :=
  match c.encode with
  | .ok e => e.fragment
  | .error _ => ""

/-- What a column that was written has. -/
theorem encode_eq_ok {c : Column} {e : EncodedColumn} (h : c.encode = .ok e) :
    ∃ kind, c.kind = .ok kind ∧ c.checkIdentifiers = .ok () ∧
      c.text = c.name ++ ": " ++ (c.chain kind).text := by
  obtain ⟨kind, hk, hi, rfl⟩ := encode_eq_ok_iff.1 h
  refine ⟨kind, hk, hi, ?_⟩
  rw [text, h, encoded, text_chain, ← String.append_assoc]

/-- The text of a column spells its tokens. -/
theorem closed_text {c : Column} {e : EncodedColumn} (h : c.encode = .ok e)
    (hf : c.CallsFunction) : Closed c.text c.tokens := by
  intro cs ts hcs
  obtain ⟨kind, hk, hi, ht⟩ := encode_eq_ok h
  have hn : Text.isIdentifier c.name = true :=
    checkIdentifiers_eq_ok_iff.1 hi (c.name, Text.isIdentifier c.name)
      (by simp [unquotedNames])
  simp only [ht, tokens, hk, String.toList_append, List.append_assoc]
  refine .word hn (.fixed (by decide)) (.fixed [.colon] rfl ?_)
  exact Chain.closed (proper_chain hk hi hf) hcs

/-- The tokens of a column begin with its name. -/
theorem beginsOther_tokens {c : Column} {e : EncodedColumn} (h : c.encode = .ok e) {t : Token}
    (ht : ∀ name, t ≠ .identifier name) : Parse.BeginsOther t c.tokens := by
  obtain ⟨kind, hk, -, -⟩ := encode_eq_ok h
  exact ⟨.identifier c.name, _, by rw [tokens, hk], (ht _).symm⟩

/-- The tokens of a column are read. -/
theorem tokens_read {c : Column} {e : EncodedColumn} {rest : List Token} (h : c.encode = .ok e)
    (hf : c.CallsFunction) (hl : c.Legible) (hd : rest.head? ≠ some .dot) :
    Parse.Reads Parse.column (c.tokens ++ rest) rest (· = c.reread) := by
  obtain ⟨kind, hk, -, -⟩ := encode_eq_ok h
  rw [tokens, hk]
  refine Parse.identifier_reads.seq (Parse.expect_reads.next fun _ => ?_)
  refine (Parse.chain_reads (c.chain kind) hd).bind fun d hu => ?_
  have hd : interpret c.name d = .ok c.reread := by
    refine interpret_of_unlined ?_
    rw [hu, unlined_chain, interpret_chain hk hf hl]
  rw [hd]
  exact .pure rfl

/-- The tokens of a column that is not legible are not read. -/
theorem tokens_refused {c : Column} {e : EncodedColumn} {rest : List Token} (h : c.encode = .ok e)
    (hl : ¬ c.Legible) (hd : rest.head? ≠ some .dot) :
    Parse.Refuses Parse.column (c.tokens ++ rest) := by
  obtain ⟨kind, hk, -, -⟩ := encode_eq_ok h
  rw [tokens, hk]
  refine Parse.identifier_reads.seq_refuses (Parse.expect_reads.refuses fun _ _ => ?_)
  refine (Parse.chain_reads (c.chain kind) hd).refuses fun d hu => ?_
  obtain ⟨e, he⟩ := interpret_refused hk hl hu
  rw [he]
  exact fun s _ => ⟨e, rfl⟩

/-- The imports of a column are named by identifiers. -/
theorem named_imports {c : Column} {e : EncodedColumn} (h : c.encode = .ok e) :
    e.imports.Named := by
  obtain ⟨kind, hk, hi, rfl⟩ := encode_eq_ok_iff.1 h
  have hn := checkIdentifiers_eq_ok_iff.1 hi
  refine ImportSet.named_ofList (List.forall_mem_cons.2 ⟨?_, fun i hi => ?_⟩)
  · rcases kind_cases hk with ⟨e, he, rfl⟩ | ⟨type, -, -, -, rfl⟩
    · exact isIdentifier_of_isBindingName
        (hn (e, Text.isBindingName e) (by simp [unquotedNames, he]))
    · exact isIdentifier_constructor type
  · rcases List.mem_append.1 hi with hi | hi
    · split at hi
      · cases List.mem_singleton.1 hi
        decide
      · cases hi
    · split at hi
      next r hr =>
        cases List.mem_singleton.1 hi
        exact isIdentifier_of_isBindingName
          (hn (r.table, Text.isBindingName (tableVariable r.table)) (by simp [unquotedNames, hr]))
      · cases hi

end Column

end SchemaLoom
