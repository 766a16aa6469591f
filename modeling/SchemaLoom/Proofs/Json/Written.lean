/-
  The texts of a value.

  A value whose numbers are integers may be written in many ways, with spaces
  between its tokens (`Written`).  Its compact and its pretty form are two of them.

  * `Written.exists_begin`: a text begins with a character that tells the shape
    of the value;
  * `Value.Exact.written_compact`, `Value.Exact.written_pretty`: the two forms.
-/
import SchemaLoom.Json.Cursor
import SchemaLoom.Proofs.Source.Fragment

namespace SchemaLoom.Json

/-! ## The grammar -/

/-- The characters are spaces. -/
def Spaces (cs : List Char) : Prop := cs.all isSpace = true

/-- What stands in front of an item of a list: spaces, and a comma in front of
    every item but the first. -/
inductive Lead : Bool → List Char → Prop
  | first {spaces} : Spaces spaces → Lead true spaces
  | more {before after} : Spaces before → Spaces after → Lead false (before ++ ',' :: after)

/-- The items of a list, each written as `text` tells, up to the closing
    bracket. -/
inductive Row {α : Type} (text : α → List Char → Prop) : Bool → List α → List Char → Prop
  | done {first spaces} : Spaces spaces → Row text first [] spaces
  | item {first lead x cs xs rest} : Lead first lead → text x cs → Row text false xs rest →
      Row text first (x :: xs) (lead ++ (cs ++ rest))

mutual

/-- The characters are a text of the value. -/
inductive Written : Value → List Char → Prop
  | null : Written .null "null".toList
  | bool (b : Bool) : Written (.bool b) (if b then "true".toList else "false".toList)
  | integer (i : Int) : Written (.integer i) (integerText i).toList
  | string (s : String) : Written (.string s) (stringChars s)
  | array {items cs} : Row Written true items cs → Written (.array items) ('[' :: (cs ++ [']']))
  | object {members cs} : Row WrittenMember true members cs →
      Written (.object members) ('\x7b' :: (cs ++ ['\x7d']))

/-- The characters are a text of the member of an object. -/
inductive WrittenMember : String × Value → List Char → Prop
  | member {k v before after cs} : Spaces before → Spaces after → Written v cs →
      WrittenMember (k, v) (stringChars k ++ (before ++ ':' :: (after ++ cs)))

end

namespace Value

/-- All numbers of the value are integers. -/
inductive Exact : Value → Prop
  | null : Exact .null
  | bool (b : Bool) : Exact (.bool b)
  | integer (i : Int) : Exact (.integer i)
  | string (s : String) : Exact (.string s)
  | array {items : List Value} : (∀ v ∈ items, Exact v) → Exact (.array items)
  | object {members : List (String × Value)} : (∀ m ∈ members, Exact m.2) → Exact (.object members)

end Value

/-! ## First characters -/

/-- Whether a character stands in the text of an integer. -/
def isIntegerPart (c : Char) : Bool := c == '-' || c.isDigit

theorem isIntegerPart_of_mem {i : Int} {c : Char} (h : c ∈ (integerText i).toList) :
    isIntegerPart c = true := by
  have hdigits : c ∈ Nat.toDigits 10 i.natAbs → c.isDigit = true :=
    fun hc => Nat.isDigit_of_mem_toDigits (by omega) (by omega) hc
  rw [Source.toList_integerText] at h
  rw [isIntegerPart, Bool.or_eq_true, beq_iff_eq]
  split at h
  · rcases List.mem_cons.1 h with rfl | h
    · exact .inl rfl
    · exact .inr (hdigits h)
  · exact .inr (hdigits h)

/-- An integer begins with a sign or a digit. -/
theorem exists_integerText (i : Int) :
    ∃ c cs, (integerText i).toList = c :: cs ∧ isIntegerPart c = true := by
  cases hcs : (integerText i).toList with
  | nil =>
    have hi := Source.isNumeral_integerText i
    rw [hcs] at hi
    exact absurd hi (by decide)
  | cons c cs =>
    exact ⟨c, cs, rfl, isIntegerPart_of_mem (hcs ▸ List.mem_cons_self)⟩

/-- The shapes of values. -/
inductive Shape where
  | null
  | bool
  | number
  | string
  | array
  | object
  deriving DecidableEq

/-- The shape of a value. -/
def Value.shape : Value → Shape
  | .null => .null
  | .bool _ => .bool
  | .number _ => .number
  | .string _ => .string
  | .array _ => .array
  | .object _ => .object

/-- The shape of the value that a character begins. -/
def shapeOf? (c : Char) : Option Shape :=
  if c = 'n' then some .null
  else if c = 't' ∨ c = 'f' then some .bool
  else if c = '"' then some .string
  else if c = '[' then some .array
  else if c = '\x7b' then some .object
  else if isIntegerPart c then some .number
  else none

/-- The first character of a text tells the shape of the value. -/
theorem Written.exists_begin {v : Value} {cs : List Char} (h : Written v cs) :
    ∃ c ds, cs = c :: ds ∧ shapeOf? c = some v.shape := by
  cases h with
  | null => exact ⟨_, _, rfl, by decide⟩
  | bool b => cases b <;> exact ⟨_, _, rfl, by decide⟩
  | integer i =>
    obtain ⟨c, cs, hcs, hc⟩ := exists_integerText i
    refine ⟨c, cs, hcs, ?_⟩
    have hne : ∀ d, isIntegerPart d = false → c ≠ d := by
      rintro d hd rfl
      exact absurd (hc.symm.trans hd) (by decide)
    have hshape : shapeOf? c = some .number := by
      simp [shapeOf?, hc, hne 'n' (by decide), hne 't' (by decide), hne 'f' (by decide),
        hne '"' (by decide), hne '[' (by decide), hne '\x7b' (by decide)]
    exact hshape
  | string s => exact ⟨'"', _, rfl, rfl⟩
  | array h => exact ⟨'[', _, rfl, rfl⟩
  | object h => exact ⟨'\x7b', _, rfl, rfl⟩

/-! ## Lists -/

section
variable {α : Type} {text : α → List Char}

/-- The first item, then each of the others behind a comma. -/
theorem intercalate_cons_eq (x : α) (xs : List α) : [','].intercalate ((x :: xs).map text) =
    text x ++ xs.flatMap fun y => ',' :: text y := by
  induction xs generalizing x with
  | nil => simp
  | cons y xs ih =>
    rw [List.map_cons, List.map_cons, List.intercalate_cons_cons, ← List.map_cons, ih,
      List.flatMap_cons, List.cons_append, List.append_assoc, List.singleton_append]

/-- Items separated by commas, with the same spaces in front of each. -/
theorem row_separated {written : α → List Char → Prop} {before after : List Char} {xs : List α}
    (hb : Spaces before) (ha : Spaces after) (h : ∀ x ∈ xs, written x (text x)) :
    Row written true xs ([','].intercalate (xs.map fun x => before ++ text x) ++ after) := by
  have hmore : ∀ ys : List α, (∀ y ∈ ys, written y (text y)) →
      Row written false ys ((ys.flatMap fun y => ',' :: (before ++ text y)) ++ after) := by
    intro ys hys
    induction ys with
    | nil => exact .done ha
    | cons y ys ih =>
      obtain ⟨hy, hys⟩ := List.forall_mem_cons.1 hys
      have hlead : Lead false ([] ++ ',' :: before) := .more rfl hb
      have hrow := Row.item hlead hy (ih hys)
      rw [List.flatMap_cons, List.append_assoc]
      simpa only [List.append_assoc, List.cons_append, List.nil_append] using hrow
  cases xs with
  | nil => exact .done ha
  | cons x xs =>
    obtain ⟨hx, hxs⟩ := List.forall_mem_cons.1 h
    rw [intercalate_cons_eq, List.append_assoc, List.append_assoc]
    exact .item (.first hb) hx (hmore xs hxs)

end

theorem compactItems_eq (items : List Value) :
    compactItems items = [','].intercalate (items.map compactChars) := by
  induction items with
  | nil => rfl
  | cons v vs ih =>
    cases vs with
    | nil => simp [compactItems]
    | cons w ws => simp [compactItems, List.intercalate_cons_cons, ih]

/-- The characters of a member of an object. -/
def memberChars (m : String × Value) : List Char := stringChars m.1 ++ ':' :: compactChars m.2

theorem compactMembers_eq (members : List (String × Value)) :
    compactMembers members = [','].intercalate (members.map memberChars) := by
  induction members with
  | nil => rfl
  | cons m ms ih =>
    cases ms with
    | nil => simp [compactMembers, memberChars]
    | cons n ns => simp [compactMembers, List.intercalate_cons_cons, memberChars, ih]

theorem prettyItems_eq (depth : Nat) (items : List Value) : prettyItems depth items =
    [','].intercalate (items.map fun v => newLine depth ++ prettyChars depth v) := by
  induction items with
  | nil => rfl
  | cons v vs ih =>
    cases vs with
    | nil => simp [prettyItems]
    | cons w ws => simp [prettyItems, List.intercalate_cons_cons, ih]

/-- The characters of a member of an object on a line of its own. -/
def prettyMember (depth : Nat) (m : String × Value) : List Char :=
  stringChars m.1 ++ ':' :: ' ' :: prettyChars depth m.2

theorem prettyMembers_eq (depth : Nat) (members : List (String × Value)) :
    prettyMembers depth members =
      [','].intercalate (members.map fun m => newLine depth ++ prettyMember depth m) := by
  induction members with
  | nil => rfl
  | cons m ms ih =>
    cases ms with
    | nil => simp [prettyMembers, prettyMember]
    | cons n ns => simp [prettyMembers, List.intercalate_cons_cons, prettyMember, ih]

/-! ## The two forms -/

theorem spaces_nil : Spaces [] := rfl

theorem spaces_blank : Spaces [' '] := rfl

theorem spaces_newLine (depth : Nat) : Spaces (newLine depth) := by
  rw [Spaces, newLine, List.all_cons, List.all_replicate]
  split <;> rfl

namespace Value

/-- The compact form is a text of the value. -/
theorem Exact.written_compact {v : Value} (h : v.Exact) : Written v (compactChars v) := by
  induction h with
  | null => exact .null
  | bool b => exact .bool b
  | integer i => exact .integer i
  | string s => exact .string s
  | @array items _ ih =>
    have hrow := row_separated spaces_nil spaces_nil ih
    rw [List.append_nil] at hrow
    rw [compactChars, compactItems_eq]
    exact .array hrow
  | @object members _ ih =>
    have hm : ∀ m ∈ members, WrittenMember m (memberChars m) := fun m hm =>
      .member spaces_nil spaces_nil (ih m hm)
    have hrow := row_separated spaces_nil spaces_nil hm
    rw [List.append_nil] at hrow
    rw [compactChars, compactMembers_eq]
    exact .object hrow

/-- The pretty form is a text of the value. -/
theorem Exact.written_pretty {v : Value} (h : v.Exact) (depth : Nat) :
    Written v (prettyChars depth v) := by
  induction h generalizing depth with
  | null => exact .null
  | bool b => exact .bool b
  | integer i => exact .integer i
  | string s => exact .string s
  | @array items _ ih =>
    cases items with
    | nil => exact .array (.done spaces_nil)
    | cons v vs =>
      rw [prettyChars, prettyItems_eq]
      exact .array (row_separated (spaces_newLine _) (spaces_newLine _) fun v hv => ih v hv _)
  | @object members _ ih =>
    cases members with
    | nil => exact .object (.done spaces_nil)
    | cons m ms =>
      have hm : ∀ n ∈ m :: ms, WrittenMember n (prettyMember (depth + 1) n) := fun n hn =>
        .member spaces_nil spaces_blank (ih n hn _)
      rw [prettyChars, prettyMembers_eq]
      exact .object (row_separated (spaces_newLine _) (spaces_newLine _) hm)

end Value

end SchemaLoom.Json
