/-
  What the shapes of JSON values mean, whatever they are read from.

  A shape is written once over any decoder, so what it reads follows from what
  the decoder's own shapes read (`LawfulDecoder`):

  * `Takes height r v a`: the reader `r` reads the value `v` as `a`, where more
    than `height` levels may nest;
  * `Answers P r`: all that the reader `r` answers with has the property `P`.

  The members of a record stand in the order of its fields (`Fills`).  While they
  are read, `Awaits` holds of the fields that are left.
-/
import Mathlib.Data.List.Forall2
import SchemaLoom.Json.Reader
import SchemaLoom.Proofs.Change.Lists
import SchemaLoom.Proofs.Json.Written

namespace SchemaLoom.Json

/-! ## Values that are kept -/

/-- The values without parts that are read as they are. -/
inductive Leaf : Value → Prop
  | bool (b : Bool) : Leaf (.bool b)
  | integer {i : Int} : -0x8000000000000000 ≤ i → i ≤ Reader.maxUnsigned → Leaf (.integer i)
  | string (s : String) : Leaf (.string s)

/-- The values of leaves that nest at most `height` levels. -/
inductive Within : Nat → Value → Prop
  | leaf {height v} : Leaf v → Within height v
  | array {height} {items : List Value} : (∀ v ∈ items, Within height v) →
      Within (height + 1) (.array items)
  | object {height} {members : List (String × Value)} : (∀ m ∈ members, Within height m.2) →
      Within (height + 1) (.object members)

theorem Leaf.natural {n : Nat} (h : n ≤ Reader.maxUnsigned) : Leaf (.nat n) :=
  .integer (by omega) (by omega)

theorem Within.string {height : Nat} (s : String) : Within height (.string s) := .leaf (.string s)

theorem Within.bool {height : Nat} (b : Bool) : Within height (.bool b) := .leaf (.bool b)

theorem Within.natural {height n : Nat} (h : n ≤ Reader.maxUnsigned) : Within height (.nat n) :=
  .leaf (.natural h)

theorem within_array {α : Type} {height : Nat} {f : α → Value} {as : List α}
    (h : ∀ a ∈ as, Within height (f a)) : Within (height + 1) (.array (as.map f)) :=
  .array (List.forall_mem_map.2 h)

theorem within_strings {height : Nat} (names : List String) :
    Within (height + 1) (.strings names) :=
  within_array fun s _ => .string s

theorem Leaf.exact {v : Value} (h : Leaf v) : v.Exact := by
  cases h with
  | bool b => exact .bool b
  | integer => exact .integer _
  | string s => exact .string s

theorem Within.exact {height : Nat} {v : Value} (h : Within height v) : v.Exact := by
  induction h with
  | leaf h => exact h.exact
  | array _ ih => exact .array ih
  | object _ ih => exact .object ih

/-- An integer inside a range is not above its limit. -/
theorem Number.le_of_inRange {limit k : Nat} {wanted : String} {n : Number}
    (h : n.inRange limit wanted = .ok k) : k ≤ limit := by
  unfold Number.inRange at h
  split at h
  next i =>
    split at h
    · cases h
      omega
    · cases h
  next => cases h

/-! ## Records -/

section
variable {m : Type → Type} {σ : Type} {all fields : List (Field m σ)} {f : Field m σ}
  {seen : List String}

/-- Read into their fields one after the other, the members lead from the first
    state of the record to the second.  They stand in the order of the fields, and
    those that must be there are. -/
inductive Fills (takes : m σ → Value → σ → Prop) :
    List (Field m σ) → List (String × Value) → σ → σ → Prop
  | done {s} : Fills takes [] [] s s
  | given {f fields v members s mid t} : takes (f.read s) v mid →
      Fills takes fields members mid t →
      Fills takes (f :: fields) ((f.name, v) :: members) s t
  | absent {f fields members s t} : f.presence ≠ .required → Fills takes fields members s t →
      Fills takes (f :: fields) members s t

/-- Of the fields `all` of a record, those in `fields` are still to come, and the
    names in `seen` are there. -/
structure Awaits (all fields : List (Field m σ)) (seen : List String) : Prop where
  names : (all.map Field.name).Nodup
  nodup : (fields.map Field.name).Nodup
  mem : ∀ f ∈ fields, f ∈ all
  unseen : ∀ f ∈ fields, f.name ∉ seen
  required : ∀ f ∈ all, f.presence = .required → f.name ∈ seen ∨ f ∈ fields

namespace Awaits

theorem start (h : (all.map Field.name).Nodup) : Awaits all all [] :=
  ⟨h, h, fun _ => id, fun _ _ => List.not_mem_nil, fun _ hf _ => .inr hf⟩

/-- The next field is found by its name. -/
theorem find?_eq (h : Awaits all (f :: fields) seen) :
    all.find? (fun g => g.name == f.name) = some f :=
  (find?_name_eq_some h.names).2 ⟨h.mem f List.mem_cons_self, rfl⟩

theorem contains_eq (h : Awaits all (f :: fields) seen) : seen.contains f.name = false := by
  simpa using h.unseen f List.mem_cons_self

/-- The next field is there. -/
theorem given (h : Awaits all (f :: fields) seen) : Awaits all fields (f.name :: seen) := by
  obtain ⟨hnew, hnodup⟩ := List.nodup_cons.1 h.nodup
  refine ⟨h.names, hnodup, fun g hg => h.mem g (.tail _ hg), fun g hg => ?_, fun g hg hr => ?_⟩
  · rw [List.mem_cons, not_or]
    exact ⟨fun he => hnew (he ▸ List.mem_map_of_mem hg), h.unseen g (.tail _ hg)⟩
  · rcases h.required g hg hr with hs | hs
    · exact .inl (.tail _ hs)
    · rcases List.mem_cons.1 hs with rfl | hs
      · exact .inl List.mem_cons_self
      · exact .inr hs

/-- The next field is left out. -/
theorem absent (h : Awaits all (f :: fields) seen) (hp : f.presence ≠ .required) :
    Awaits all fields seen := by
  refine ⟨h.names, (List.nodup_cons.1 h.nodup).2, fun g hg => h.mem g (.tail _ hg),
    fun g hg => h.unseen g (.tail _ hg), fun g hg hr => ?_⟩
  refine (h.required g hg hr).imp_right fun hs => (List.mem_cons.1 hs).resolve_left ?_
  rintro rfl
  exact hp hr

/-- In the end no field that must be there is missing. -/
theorem missingField?_eq (h : Awaits all [] seen) : missingField? all seen = none := by
  rw [missingField?, Option.map_eq_none_iff, List.find?_eq_none]
  intro f hf
  simp only [Bool.and_eq_true, beq_iff_eq, Bool.not_eq_true', List.contains_eq_mem,
    decide_eq_false_iff_not, not_and, not_not]
  exact fun hr => (h.required f hf hr).resolve_right List.not_mem_nil

end Awaits

end

/-! ## The laws -/

/-- What the shapes of a decoder read, and what they answer with. -/
class LawfulDecoder (m : Type → Type) [Decoder m] where
  /-- The reader reads the value `v` as `a`, where more than `height` levels may
      nest. -/
  Takes {α : Type} (height : Nat) (r : m α) (v : Value) (a : α) : Prop
  /-- What is read is put to use. -/
  takes_bind {α β : Type} {height : Nat} {r : m α} {f : α → m β} {v : Value} {a : α} {b : β} :
    Takes height r v a → f a = pure b → Takes height (r >>= f) v b
  takes_value {height : Nat} {v : Value} : Within height v → Takes height Decoder.value v v
  takes_string {height : Nat} (s : String) : Takes height Decoder.string (.string s) s
  takes_boolean {height : Nat} (b : Bool) : Takes height Decoder.boolean (.bool b) b
  takes_natural {height n limit : Nat} (wanted : String) : n ≤ limit →
    limit ≤ Reader.maxUnsigned → Takes height (Decoder.natural limit wanted) (.nat n) n
  /-- A value that is not `null` is read where it may be absent. -/
  takes_optional {α : Type} {height : Nat} {r : m α} {v : Value} {a : α} :
    Takes height r v a → v.shape ≠ .null → Takes height (Decoder.optional r) v (some a)
  /-- An array is read if its items are. -/
  takes_items {α : Type} {height : Nat} {item : m α} {vs : List Value} {as : List α} :
    List.Forall₂ (Takes height item) vs as → Takes (height + 1) (Decoder.list item) (.array vs) as
  /-- A record is read if its members fill its fields. -/
  takes_record {σ : Type} {height : Nat} {wanted : String} {fields : List (Field m σ)}
    {members : List (String × Value)} {start t : σ} : (fields.map Field.name).Nodup →
    Fills (Takes height) fields members start t →
    Takes (height + 1) (Decoder.record wanted fields start) (.object members) t
  /-- What the reader answers with has the property, whatever it is given. -/
  Answers {α : Type} (P : α → Prop) (r : m α) : Prop
  answers_true {α : Type} (r : m α) : Answers (fun _ => True) r
  answers_pure {α : Type} {P : α → Prop} {a : α} : P a → Answers P (pure a)
  answers_bind {α β : Type} {P : α → Prop} {Q : β → Prop} {r : m β} {f : β → m α} :
    Answers Q r → (∀ b, Q b → Answers P (f b)) → Answers P (r >>= f)
  answers_refuse {α : Type} {P : α → Prop} (fault : DataError) :
    Answers P (Decoder.refuse fault : m α)
  answers_natural (limit : Nat) (wanted : String) :
    Answers (· ≤ limit) (Decoder.natural limit wanted)
  answers_optional {α : Type} {P : α → Prop} {item : m α} : Answers P item →
    Answers (fun o => ∀ a ∈ o, P a) (Decoder.optional item)
  answers_list {α : Type} {P : α → Prop} {item : m α} : Answers P item →
    Answers (fun as => ∀ a ∈ as, P a) (Decoder.list item)
  /-- A record has a property that its start has and that every field keeps. -/
  answers_record {σ : Type} {I : σ → Prop} {fields : List (Field m σ)} :
    (∀ f ∈ fields, ∀ s, I s → Answers I (f.read s)) → ∀ (wanted : String) {start : σ}, I start →
    Answers I (Decoder.record wanted fields start)

namespace LawfulDecoder

variable {m : Type → Type} [Decoder m] [LawfulDecoder m] {α β : Type} {P : α → Prop} {height : Nat}

theorem takes_list {item : m α} {f : α → Value} {as : List α}
    (h : ∀ a ∈ as, Takes height item (f a) a) :
    Takes (height + 1) (Decoder.list item) (.array (as.map f)) as :=
  takes_items (List.forall₂_map_left_iff.2 (List.forall₂_same.2 h))

theorem takes_strings (names : List String) :
    Takes (height + 1) (Decoder.list (Decoder.string : m String)) (.strings names) names :=
  takes_list fun name _ => takes_string name

/-- A value that may be absent, and that is not `null` if it is there. -/
theorem takes_present {r : m α} {f : α → Value} {o : Option α}
    (h : ∀ a ∈ o, Takes height r (f a) a) (hf : ∀ a, (f a).shape ≠ .null) :
    ∀ x ∈ o.map f, Takes height (Decoder.optional r) x o := by
  intro x hx
  obtain ⟨a, ha, rfl⟩ := Option.map_eq_some_iff.1 hx
  obtain rfl := ha
  exact takes_optional (h a rfl) (hf a)

/-- What comes before does not matter. -/
theorem answers_after {r : m β} {f : β → m α} (hf : ∀ b, Answers P (f b)) :
    Answers P (r >>= f) :=
  answers_bind (answers_true r) fun b _ => hf b

end LawfulDecoder

end SchemaLoom.Json
