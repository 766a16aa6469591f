/-
  Schemas are read back from their JSON form.

  A default that is read from a JSON value is what its own JSON form stands for
  (`DefaultValue.Told`): the texts that spell calls have become calls.  So what is
  read is written in a form that is read as the same again, and what is left out
  of the form has the value that the reader starts with.

  * `Schema.Told.takes_decode`: the form of a schema is read as the schema, and so
    are the forms of its parts;
  * `Schema.answers_decode`: a schema that is read has defaults that are told;
  * `Schema.exists_ofJson_iff`: these are the schemas that texts stand for;
  * `Schema.ofJson_toJson`: both printed forms of such a schema are read back.
-/
import SchemaLoom.Proofs.Json.Answers
import SchemaLoom.Proofs.Schema.Json

namespace SchemaLoom

open Json (Value Decoder Field Fills LawfulDecoder Reader)
open Json.LawfulDecoder

variable {m : Type → Type} [Decoder m] [LawfulDecoder m]

/-! ## Values that are there -/

theorem shape_bool_ne (b : Bool) : (Value.bool b).shape ≠ .null := nofun

theorem shape_integer_ne (i : Int) : (Value.integer i).shape ≠ .null := nofun

theorem shape_string_ne (s : String) : (Value.string s).shape ≠ .null := nofun

/-! ## Defaults -/

namespace DefaultValue

/-- The default is what its JSON form stands for. -/
def Told (d : DefaultValue) : Prop := ofJson? d.toJson = .ok d

/-- A text that stands for a call spells the call of a function. -/
theorem of_calledFunction? {s f : String} (h : calledFunction? s = some f) :
    s = callText f ∧ isFunctionName f.toList = true := by
  obtain ⟨call, hcall, h⟩ := Option.bind_eq_some_iff.1 h
  obtain ⟨name, hname, h⟩ := Option.bind_eq_some_iff.1 h
  split at h
  next hf =>
    obtain rfl := Option.some.inj h
    have hs : "sql.".toList ++ call = s.toList := List.isPrefixOf?_eq_some_iff_append_eq.1 hcall
    have hc : name ++ "()".toList = call := List.isSuffixOf?_eq_some_iff_append_eq.1 hname
    refine ⟨String.toList_injective ?_, by rwa [String.toList_ofList]⟩
    rw [← hs, ← hc]
    simp [callText]
  next => cases h

theorem told_ofText (s : String) : (ofText s).Told := by
  cases hs : calledFunction? s with
  | some f =>
    have hd : ofText s = .call f := by rw [ofText, hs]
    rw [hd, Told, toJson, ← (of_calledFunction? hs).1, ofJson?, hd]
  | none =>
    have hd : ofText s = .text s := by rw [ofText, hs]
    rw [hd, Told, toJson, ofJson?, hd]

theorem told_integer (i : Int64) : (integer i).Told := by
  have h1 := i.le_toInt
  have h2 := i.toInt_lt
  have hi : Json.int64? i.toInt = some i := by
    rw [Json.int64?, if_pos ⟨h1, by omega⟩, Int64.ofInt_toInt]
  simp only [Told, toJson, Value.integer, ofJson?, hi]

/-- **What a JSON value stands for is told by its own JSON form.** -/
theorem told_of_ofJson? {v : Value} {d : DefaultValue} (h : ofJson? v = .ok d) : d.Told := by
  unfold ofJson? at h
  split at h
  · cases h
    rfl
  · split at h
    · split at h
      · cases h
        exact told_integer _
      · cases h
    · cases h
  · cases h
    exact told_ofText _
  · cases h

/-- A call that is told names a function. -/
theorem Told.isFunctionName {f : String} (h : (call f).Told) : isFunctionName f.toList = true := by
  rw [Told, toJson, ofJson?, Except.ok.injEq, ofText] at h
  split at h
  next g hg =>
    cases h
    exact (of_calledFunction? hg).2
  next => cases h

theorem shape_toJson_ne (d : DefaultValue) : d.toJson.shape ≠ .null := by
  cases d <;> nofun

theorem Told.takes_decode {d : DefaultValue} (h : d.Told) {height : Nat} :
    Takes height (DefaultValue.decode : m _) d.toJson d :=
  takes_bind (takes_value d.within_toJson) (by rw [h])

end DefaultValue

/-! ## Members that are left out -/

section
variable {σ β : Type} {height : Nat} {f : Field m σ} {fields : List (Field m σ)}
  {members : List (String × Value)} {s t : σ} {set : β → σ} {r : m β}

/-- A field whose default is left out. -/
theorem fills_optional {v : Option Value} {b : β} (default : β) (hp : f.presence ≠ .required)
    (hread : f.read s = r >>= fun a => pure (set a)) (hs : s = set default)
    (h : ∀ x ∈ v, Takes height r x b) (hnone : v = none → b = default)
    (hrest : Fills (Takes height) fields members (set b) t) :
    Fills (Takes height) (f :: fields) (optionalMember f.name v ++ members) s t := by
  cases v with
  | none =>
    rw [hnone rfl, ← hs] at hrest
    exact .absent hp hrest
  | some x => exact .given (hread ▸ takes_bind (h x rfl) rfl) hrest

theorem fills_append_nil (h : Fills (Takes height) fields (members ++ []) s t) :
    Fills (Takes height) fields members s t := by
  rwa [List.append_nil] at h

end

/-! ## Columns -/

theorem ColumnReference.shape_toJson_ne (r : ColumnReference) : r.toJson.shape ≠ .null := nofun

theorem ColumnReference.takes_decode (r : ColumnReference) {height : Nat} :
    Takes (height + 1) (ColumnReference.decode : m _) r.toJson r :=
  takes_record (by simp) (.given (takes_bind (takes_string _) rfl)
    (.given (takes_bind (takes_string _) rfl) .done))

/-- A flag that is left out when it is not set. -/
theorem takes_flag {height : Nat} {b : Bool} :
    ∀ x ∈ (if b then some (Value.bool true) else none),
      Takes height (Decoder.boolean : m _) x b := by
  intro x hx
  cases b with
  | false => cases hx
  | true =>
    cases hx
    exact takes_boolean true

/-- A string that may be absent. -/
theorem takes_text {height : Nat} {o : Option String} :
    ∀ x ∈ o.map Value.string, Takes height (Decoder.optional (Decoder.string : m _)) x o :=
  takes_present (fun s _ => takes_string s) shape_string_ne

/-- The options are told by their JSON form if the default is. -/
theorem ColumnOptions.takes_decode {o : ColumnOptions} (h : ∀ d ∈ o.default, d.Told)
    {height : Nat} : Takes (height + 2) (ColumnOptions.decode : m _) (.object o.members) o := by
  refine takes_record (by simp) (fills_append_nil ?_)
  simp only [members, flagMember_eq, List.append_assoc]
  refine fills_optional false (by simp) rfl rfl takes_flag (by simp) ?_
  refine fills_optional false (by simp) rfl rfl takes_flag (by simp) ?_
  refine fills_optional none (by simp) rfl rfl
    (takes_present (fun d hd => (h d hd).takes_decode) DefaultValue.shape_toJson_ne)
    Option.map_eq_none_iff.1 ?_
  refine fills_optional (b := o.length.map UInt32.toNat) none (by simp) rfl rfl ?_ ?_ ?_
  · intro x hx
    obtain ⟨n, hn, rfl⟩ := Option.map_eq_some_iff.1 hx
    rw [hn]
    have hlimit : n.toNat ≤ 0xffffffff := by
      have := n.toNat_lt
      omega
    exact takes_optional (takes_natural "u32" hlimit (by decide)) (shape_integer_ne _)
  · intro hn
    rw [Option.map_eq_none_iff.1 hn, Option.map_none]
  refine fills_optional none (by simp) rfl rfl takes_text Option.map_eq_none_iff.1 ?_
  refine fills_optional none (by simp) rfl rfl
    (takes_present (fun r _ => r.takes_decode) ColumnReference.shape_toJson_ne)
    Option.map_eq_none_iff.1 ?_
  have hlength : (o.length.map UInt32.toNat).map UInt32.ofNat = o.length := by
    cases o.length <;> simp
  rw [hlength]
  exact .done

/-- The default of the column is told by its JSON form. -/
def Column.Told (c : Column) : Prop := ∀ d ∈ c.options.default, d.Told

theorem Column.Told.takes_decode {c : Column} (h : c.Told) {height : Nat} :
    Takes (height + 3) (Column.decode : m _) c.toJson c := by
  refine takes_record (by simp) (.given (takes_bind (takes_string _) rfl) (fills_append_nil ?_))
  rw [List.append_assoc]
  refine fills_optional none (by simp) rfl rfl takes_text Option.map_eq_none_iff.1 ?_
  refine fills_optional {} (by simp) rfl rfl (fun x hx => ?_) (fun hn => ?_) .done
  · split at hx
    · cases hx
    · cases hx
      exact ColumnOptions.takes_decode h
  · split at hn
    next he => exact he
    next => cases hn

/-! ## Entities -/

/-- A list of names that is left out when it is empty. -/
theorem takes_names {names : List String} {height : Nat} :
    ∀ x ∈ (if names = [] then none else some (Value.strings names)),
      Takes (height + 1) (Decoder.list (Decoder.string : m _)) x names := by
  intro x hx
  split at hx
  · cases hx
  · cases hx
    exact takes_strings names

theorem names_eq_nil {names : List String}
    (h : (if names = [] then none else some (Value.strings names)) = none) : names = [] := by
  split at h
  next hn => exact hn
  next => cases h

theorem EnumDef.takes_decode (e : EnumDef) {height : Nat} :
    Takes (height + 2) (EnumDef.decode : m _) e.toJson e :=
  takes_record (by simp) (.given (takes_bind (takes_string _) rfl)
    (.given (takes_bind (takes_strings _) rfl) .done))

/-- The defaults of the helper are told by their JSON forms. -/
def HelperDef.Told (h : HelperDef) : Prop := ∀ c ∈ h.columns, c.Told

theorem HelperDef.Told.takes_decode {h : HelperDef} (hc : h.Told) {height : Nat} :
    Takes (height + 5) (HelperDef.decode : m _) h.toJson h :=
  takes_record (by simp) (.given (takes_bind (takes_string _) rfl)
    (.given (takes_bind (takes_list fun c hm => (hc c hm).takes_decode) rfl) .done))

/-- The defaults of the table are told by their JSON forms. -/
def TableDef.Told (t : TableDef) : Prop := ∀ c ∈ t.columns, c.Told

theorem TableDef.Told.takes_decode {t : TableDef} (hc : t.Told) {height : Nat} :
    Takes (height + 5) (TableDef.decode : m _) t.toJson t := by
  refine takes_record (by simp) (.given (takes_bind (takes_string _) rfl) ?_)
  refine fills_optional none (by simp) rfl rfl takes_text Option.map_eq_none_iff.1 ?_
  refine .given (takes_bind (takes_list fun c hm => (hc c hm).takes_decode) rfl)
    (fills_append_nil ?_)
  rw [List.append_assoc, namesMember_eq, namesMember_eq]
  refine fills_optional [] (by simp) rfl rfl takes_names names_eq_nil ?_
  exact fills_optional [] (by simp) rfl rfl takes_names names_eq_nil .done

/-! ## Schemas -/

namespace Schema

/-- The defaults of the schema are told by their JSON forms. -/
structure Told (s : Schema) : Prop where
  helpers : ∀ h ∈ s.helpers, h.Told
  tables : ∀ t ∈ s.tables, t.Told

theorem Told.takes_decode {s : Schema} (h : s.Told) : Takes 7 (Schema.decode : m _) s.toJson s := by
  refine takes_record (by simp) (.given (takes_bind (takes_string _) rfl) ?_)
  refine .given (takes_bind (takes_list fun e _ => e.takes_decode) rfl) ?_
  refine .given (takes_bind (takes_list fun k hk => (h.helpers k hk).takes_decode) rfl) ?_
  refine .given (takes_bind (takes_list fun t ht => (h.tables t ht).takes_decode) rfl)
    (fills_append_nil ?_)
  exact fills_optional none (by simp) rfl rfl
    (takes_present (fun b _ => takes_boolean b) shape_bool_ne) Option.map_eq_none_iff.1 .done

end Schema

/-! ## What is read -/

theorem DefaultValue.answers_decode : Answers Told (DefaultValue.decode : m _) := by
  refine answers_after fun v => ?_
  split
  next d hd => exact answers_pure (told_of_ofJson? hd)
  next => exact answers_refuse _

theorem ColumnOptions.answers_decode :
    Answers (fun o => ∀ d ∈ o.default, d.Told) (ColumnOptions.decode : m _) := by
  refine answers_record ?_ _ nofun
  simp only [List.forall_mem_cons]
  refine ⟨fun o ho => answers_after fun _ => answers_pure ho,
    fun o ho => answers_after fun _ => answers_pure ho, fun o ho => ?_,
    fun o ho => answers_after fun _ => answers_pure ho,
    fun o ho => answers_after fun _ => answers_pure ho,
    fun o ho => answers_after fun _ => answers_pure ho, by simp⟩
  exact answers_bind (answers_optional DefaultValue.answers_decode) fun d hd => answers_pure hd

theorem Column.answers_decode : Answers Told (Column.decode : m _) := by
  refine answers_record ?_ _ nofun
  simp only [List.forall_mem_cons]
  refine ⟨fun c hc => answers_after fun _ => answers_pure hc,
    fun c hc => answers_after fun _ => answers_pure hc, fun c hc => ?_, by simp⟩
  exact answers_bind ColumnOptions.answers_decode fun o ho => answers_pure ho

theorem HelperDef.answers_decode : Answers Told (HelperDef.decode : m _) := by
  refine answers_record ?_ _ (by simp [Told])
  simp only [List.forall_mem_cons]
  refine ⟨fun h hh => answers_after fun _ => answers_pure hh, fun h hh => ?_, by simp⟩
  exact answers_bind (answers_list Column.answers_decode) fun cs hcs => answers_pure hcs

theorem TableDef.answers_decode : Answers Told (TableDef.decode : m _) := by
  refine answers_record ?_ _ (by simp [Told])
  simp only [List.forall_mem_cons]
  refine ⟨fun t ht => answers_after fun _ => answers_pure ht,
    fun t ht => answers_after fun _ => answers_pure ht, fun t ht => ?_,
    fun t ht => answers_after fun _ => answers_pure ht,
    fun t ht => answers_after fun _ => answers_pure ht, by simp⟩
  exact answers_bind (answers_list Column.answers_decode) fun cs hcs => answers_pure hcs

namespace Schema

theorem answers_decode : Answers Told (Schema.decode : m _) := by
  refine answers_record ?_ _ ⟨by simp, by simp⟩
  simp only [List.forall_mem_cons]
  refine ⟨fun s hs => answers_after fun _ => answers_pure ⟨hs.helpers, hs.tables⟩,
    fun s hs => answers_after fun _ => answers_pure ⟨hs.helpers, hs.tables⟩, fun s hs => ?_,
    fun s hs => ?_, fun s hs => answers_after fun _ => answers_pure ⟨hs.helpers, hs.tables⟩,
    by simp⟩
  · exact answers_bind (answers_list HelperDef.answers_decode) fun _ hh =>
      answers_pure ⟨hh, hs.tables⟩
  · exact answers_bind (answers_list TableDef.answers_decode) fun _ ht =>
      answers_pure ⟨hs.helpers, ht⟩

/-- The reader of schemas and their form belong together. -/
theorem codes : Reader.Codes 7 Told Schema.decode toJson where
  answers := answers_decode
  takes _ h := h.takes_decode
  within s _ := s.within_toJson

/-- The defaults of a schema that is read are told by their JSON forms. -/
theorem told_of_ofJson {text : String} {s : Schema} (h : ofJson text = .ok s) : s.Told :=
  codes.of_run h

/-- **The schemas that texts stand for** are those whose defaults are told by their
    JSON forms. -/
theorem exists_ofJson_iff {s : Schema} : (∃ text, ofJson text = .ok s) ↔ s.Told :=
  codes.exists_run_iff (by decide)

/-- **A schema that is read is read back from its JSON form**, compact or pretty. -/
theorem ofJson_toJson {text : String} {s : Schema} (h : ofJson text = .ok s) :
    ofJson s.toJson.compact = .ok s ∧ ofJson s.toJson.pretty = .ok s :=
  codes.read_back (by decide) h

set_option maxRecDepth 4000 in
/-- A helper with a call as a default, written with a flag that is left out of the
    form. -/
theorem ofJson_toJson_times :
    let text := "\x7b\"outputDir\": \"db\", \"helpers\": [\x7b\"name\": \"Times\", \"columns\": [
      \x7b\"name\": \"at\", \"options\": \x7b\"notNull\": false,
        \"default\": \"sql.now()\"\x7d\x7d]\x7d]\x7d"
    let times : HelperDef :=
      ⟨"Times", [{ name := "at", options := { default := some (.call "now") } }]⟩
    let s : Schema := { outputDir := "db", helpers := [times] }
    ofJson text = .ok s ∧ ofJson s.toJson.compact = .ok s ∧ ofJson s.toJson.pretty = .ok s := by
  intro text times s
  have h : ofJson text = .ok s := by
    -- evaluation is slow on a text, but not on its characters
    rw [show text = String.ofList _ from rfl, ofJson, Reader.run, Json.Cursor.ofString_ofList]
    exact toOption_eq_some.1 (by decide +kernel)
  exact ⟨h, ofJson_toJson h⟩

end Schema

end SchemaLoom
