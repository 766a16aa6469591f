/-
  The compact text of a value tells the value.

  A value whose numbers are integers (`Value.Exact`) begins with a character
  that tells its shape, and ends before a comma or a closing bracket, so a text
  can be read back from left to right in one way only.

  * `stringChars_append_inj`: strings;
  * `separated_append_inj`: lists whose items are separated by commas;
  * `Value.Exact.eq_of_compact`: whole values.
-/
import SchemaLoom.Json.Leaf
import SchemaLoom.Proofs.Json.Written

namespace SchemaLoom.Json

variable {r r' : List Char}

/-! ## Strings -/

/-- The character that a string begins with, behind its opening quote, and what
    follows it. -/
def nextChar? : List Char → Option (Char × List Char)
  | [] => none
  | '"' :: _ => none
  | '\\' :: 'u' :: '0' :: '0' :: high :: low :: rest => do
    let x ← Reader.hexValue? high
    let y ← Reader.hexValue? low
    some (Char.ofNat (16 * x + y), rest)
  | '\\' :: c :: rest => (Reader.shortEscape? c).map fun out => (out, rest)
  | c :: rest => some (c, rest)

theorem hexValue?_hexDigit : ∀ d < 16, Reader.hexValue? (Text.hexDigit d) = some d := by decide

/-- The ways to write a character of a string: by an escape of one letter, by its
    code, or as it is. -/
inductive Escaped (c : Char) : List Char → Prop
  | letter {l : Char} : l ≠ 'u' → Reader.shortEscape? l = some c → Escaped c ['\\', l]
  | code : c.toNat < 32 → Escaped c
      ['\\', 'u', '0', '0', Text.hexDigit (c.toNat / 16), Text.hexDigit (c.toNat % 16)]
  | plain : c ≠ '"' → c ≠ '\\' → 32 ≤ c.toNat → Escaped c [c]

/-- A character is written in one of these ways. -/
theorem escaped_escapeChar (c : Char) : Escaped c (escapeChar c) := by
  by_cases hc : c ∈ ['"', '\\', '\x08', '\x0c', '\n', '\r', '\t']
  · simp only [List.mem_cons, List.not_mem_nil, or_false] at hc
    rcases hc with rfl | rfl | rfl | rfl | rfl | rfl | rfl <;> exact .letter (by decide) rfl
  · simp only [List.mem_cons, List.not_mem_nil, or_false, not_or] at hc
    obtain ⟨hquote, hslash, hb, hf, hn, hr, ht⟩ := hc
    rw [escapeChar, if_neg hquote, if_neg hslash, if_neg hb, if_neg hf, if_neg hn, if_neg hr,
      if_neg ht]
    split
    next hcode => exact .code hcode
    next hcode => exact .plain hquote hslash (Nat.le_of_not_lt hcode)

/-- An escaped character is read as itself. -/
theorem nextChar?_escapeChar (c : Char) (rest : List Char) :
    nextChar? (escapeChar c ++ rest) = some (c, rest) := by
  have h := escaped_escapeChar c
  generalize escapeChar c = word at h
  cases h with
  | letter hu hl => simp [nextChar?, hu, hl]
  | code hc =>
    have hhigh := hexValue?_hexDigit (c.toNat / 16) (by omega)
    have hlow := hexValue?_hexDigit (c.toNat % 16) (by omega)
    have hn : 16 * (c.toNat / 16) + c.toNat % 16 = c.toNat := by omega
    simp [nextChar?, hhigh, hlow, hn]
  | plain hquote hslash _ => simp [nextChar?, hslash]

/-- What follows the opening quote tells the string and what is behind it. -/
theorem flatMap_escapeChar_inj {cs ds : List Char}
    (h : cs.flatMap escapeChar ++ '"' :: r = ds.flatMap escapeChar ++ '"' :: r') :
    cs = ds ∧ r = r' := by
  have hend : ∀ rest, nextChar? ('"' :: rest) = none := fun _ => rfl
  induction cs generalizing ds with
  | nil =>
    cases ds with
    | nil => exact ⟨rfl, (List.cons.inj h).2⟩
    | cons d ds =>
      have hnext := congrArg nextChar? h
      rw [List.flatMap_cons, List.append_assoc, nextChar?_escapeChar] at hnext
      exact absurd hnext (by simp [hend])
  | cons c cs ih =>
    rw [List.flatMap_cons, List.append_assoc] at h
    have hnext := congrArg nextChar? h
    rw [nextChar?_escapeChar] at hnext
    cases ds with
    | nil => exact absurd hnext (by simp [hend])
    | cons d ds =>
      rw [List.flatMap_cons, List.append_assoc, nextChar?_escapeChar] at hnext
      obtain ⟨rfl, hrest⟩ := Prod.mk.inj (Option.some.inj hnext)
      obtain ⟨rfl, hr⟩ := ih hrest
      exact ⟨rfl, hr⟩

/-- **A string ends at its closing quote.** -/
theorem stringChars_append_inj {s t : String} (h : stringChars s ++ r = stringChars t ++ r') :
    s = t ∧ r = r' := by
  simp only [stringChars, List.cons_append, List.append_assoc, List.nil_append] at h
  obtain ⟨hs, hr⟩ := flatMap_escapeChar_inj (List.cons.inj h).2
  exact ⟨String.toList_injective hs, hr⟩

/-! ## Integers -/

/-- What may stand behind a value. -/
def EndsValue (r : List Char) : Prop := ∀ c ∈ r.head?, c = ',' ∨ c = ']' ∨ c = '\x7d'

theorem endsValue_nil : EndsValue [] := by simp [EndsValue]

theorem endsValue_cons {c : Char} (h : c = ',' ∨ c = ']' ∨ c = '\x7d') : EndsValue (c :: r) := by
  intro d hd
  obtain rfl := Option.some.inj hd
  exact h

theorem EndsValue.stops (hr : EndsValue r) : Source.Stops isIntegerPart r := by
  intro c hc
  rcases hr c hc with rfl | rfl | rfl <;> decide

/-- **An integer ends before what is no part of it.** -/
theorem integerText_append_inj {i j : Int} (hr : EndsValue r) (hr' : EndsValue r')
    (h : (integerText i).toList ++ r = (integerText j).toList ++ r') : i = j ∧ r = r' := by
  have hall : ∀ i, (integerText i).toList.all isIntegerPart = true := fun i =>
    List.all_eq_true.2 fun c hc => isIntegerPart_of_mem hc
  have htext := congrArg (List.takeWhile isIntegerPart) h
  rw [Source.takeWhile_append_stops (hall i) hr.stops,
    Source.takeWhile_append_stops (hall j) hr'.stops] at htext
  have hij : i = j := by
    rw [← Source.literalValue_integerText i, ← Source.literalValue_integerText j,
      String.toList_injective htext]
  rw [htext] at h
  exact ⟨hij, List.append_cancel_left h⟩

/-! ## Lists -/

section
variable {α : Type} {text : α → List Char} {close : Char} {xs ys : List α}

theorem endsValue_more (hclose : close = ']' ∨ close = '\x7d') (xs : List α) :
    EndsValue (xs.flatMap (fun y => ',' :: text y) ++ close :: r) := by
  cases xs with
  | nil => exact endsValue_cons (.inr hclose)
  | cons x xs => exact endsValue_cons (.inl rfl)

/-- Items that each stand behind a comma. -/
theorem more_append_inj (hclose : close = ']' ∨ close = '\x7d')
    (hinj : ∀ x ∈ xs, ∀ y ∈ ys, ∀ r r', EndsValue r → EndsValue r' →
      text x ++ r = text y ++ r' → x = y ∧ r = r')
    (h : xs.flatMap (fun x => ',' :: text x) ++ close :: r =
      ys.flatMap (fun y => ',' :: text y) ++ close :: r') : xs = ys ∧ r = r' := by
  have hcomma : close ≠ ',' := by
    rcases hclose with rfl | rfl <;> decide
  induction xs generalizing ys with
  | nil =>
    cases ys with
    | nil => exact ⟨rfl, (List.cons.inj h).2⟩
    | cons y ys => exact absurd (List.cons.inj h).1 hcomma
  | cons x xs ih =>
    cases ys with
    | nil => exact absurd (List.cons.inj h).1.symm hcomma
    | cons y ys =>
      rw [List.flatMap_cons, List.flatMap_cons, List.append_assoc, List.append_assoc] at h
      obtain ⟨rfl, hrest⟩ := hinj x List.mem_cons_self y List.mem_cons_self _ _
        (endsValue_more hclose xs) (endsValue_more hclose ys) (List.cons.inj h).2
      obtain ⟨rfl, hr⟩ := ih (fun a ha b hb =>
        hinj a (List.mem_cons_of_mem x ha) b (List.mem_cons_of_mem x hb)) hrest
      exact ⟨rfl, hr⟩

/-- **Items that are separated by commas end where the last of them does**, if
    each item tells where it ends and none begins like the end of the list. -/
theorem separated_append_inj (hclose : close = ']' ∨ close = '\x7d')
    (hinj : ∀ x ∈ xs, ∀ y ∈ ys, ∀ r r', EndsValue r → EndsValue r' →
      text x ++ r = text y ++ r' → x = y ∧ r = r')
    (hbegin : ∀ x, x ∈ xs ∨ x ∈ ys → ∃ c cs, text x = c :: cs ∧ c ≠ close)
    (h : [','].intercalate (xs.map text) ++ close :: r =
      [','].intercalate (ys.map text) ++ close :: r') : xs = ys ∧ r = r' := by
  cases xs with
  | nil =>
    cases ys with
    | nil => exact ⟨rfl, (List.cons.inj h).2⟩
    | cons y ys =>
      obtain ⟨c, cs, hc, hne⟩ := hbegin y (.inr List.mem_cons_self)
      rw [intercalate_cons_eq, hc] at h
      exact absurd (List.cons.inj h).1.symm hne
  | cons x xs =>
    cases ys with
    | nil =>
      obtain ⟨c, cs, hc, hne⟩ := hbegin x (.inl List.mem_cons_self)
      rw [intercalate_cons_eq, hc] at h
      exact absurd (List.cons.inj h).1 hne
    | cons y ys =>
      rw [intercalate_cons_eq, intercalate_cons_eq, List.append_assoc, List.append_assoc] at h
      obtain ⟨rfl, hrest⟩ := hinj x List.mem_cons_self y List.mem_cons_self _ _
        (endsValue_more hclose xs) (endsValue_more hclose ys) h
      obtain ⟨rfl, hr⟩ := more_append_inj hclose (fun a ha b hb =>
        hinj a (List.mem_cons_of_mem x ha) b (List.mem_cons_of_mem x hb)) hrest
      exact ⟨rfl, hr⟩

end

/-! ## Values -/

namespace Value

/-- The first character of a value tells its shape. -/
theorem Exact.exists_begin {v : Value} (hv : v.Exact) :
    ∃ c cs, compactChars v = c :: cs ∧ shapeOf? c = some v.shape :=
  hv.written_compact.exists_begin

theorem Exact.exists_begin_ne {v : Value} (hv : v.Exact) {close : Char}
    (hclose : shapeOf? close = none) : ∃ c cs, compactChars v = c :: cs ∧ c ≠ close := by
  obtain ⟨c, cs, hcs, hc⟩ := hv.exists_begin
  refine ⟨c, cs, hcs, ?_⟩
  rintro rfl
  rw [hclose] at hc
  cases hc

theorem Exact.shape_eq {v w : Value} (hv : v.Exact) (hw : w.Exact)
    (h : compactChars v ++ r = compactChars w ++ r') : v.shape = w.shape := by
  obtain ⟨c, cs, hcs, hc⟩ := hv.exists_begin
  obtain ⟨d, ds, hds, hd⟩ := hw.exists_begin
  rw [hcs, hds] at h
  rw [(List.cons.inj h).1, hd] at hc
  exact (Option.some.inj hc).symm

/-- **A value ends before what may stand behind it**, so its text tells it. -/
theorem Exact.append_inj {v w : Value} (hv : v.Exact) (hw : w.Exact) (hr : EndsValue r)
    (hr' : EndsValue r') (h : compactChars v ++ r = compactChars w ++ r') : v = w ∧ r = r' := by
  induction hv generalizing w r r' with
  | null =>
    have hshape := Exact.shape_eq .null hw h
    cases hw <;> try cases hshape
    exact ⟨rfl, List.append_cancel_left h⟩
  | bool b =>
    have hshape := Exact.shape_eq (.bool b) hw h
    cases hw <;> try cases hshape
    next b' =>
      cases b <;> cases b' <;> simp [compactChars] at h
      · exact ⟨rfl, h⟩
      · exact ⟨rfl, h⟩
  | integer i =>
    have hshape := Exact.shape_eq (.integer i) hw h
    cases hw <;> try cases hshape
    next j =>
      obtain ⟨rfl, hrest⟩ := integerText_append_inj hr hr' h
      exact ⟨rfl, hrest⟩
  | string s =>
    have hshape := Exact.shape_eq (.string s) hw h
    cases hw <;> try cases hshape
    next t =>
      obtain ⟨rfl, hrest⟩ := stringChars_append_inj h
      exact ⟨rfl, hrest⟩
  | @array items hitems ih =>
    have hshape := Exact.shape_eq (.array hitems) hw h
    cases hw <;> try cases hshape
    next items' hitems' =>
      simp only [compactChars, compactItems_eq, List.cons_append, List.append_assoc,
        List.nil_append] at h
      have hinj : ∀ x ∈ items, ∀ y ∈ items', ∀ r r', EndsValue r → EndsValue r' →
          compactChars x ++ r = compactChars y ++ r' → x = y ∧ r = r' :=
        fun x hx y hy r r' hr hr' h => ih x hx (hitems' y hy) hr hr' h
      have hbegin : ∀ x, x ∈ items ∨ x ∈ items' → ∃ c cs, compactChars x = c :: cs ∧ c ≠ ']' := by
        rintro x (hx | hx)
        · exact (hitems x hx).exists_begin_ne (by decide)
        · exact (hitems' x hx).exists_begin_ne (by decide)
      obtain ⟨rfl, hrest⟩ := separated_append_inj (.inl rfl) hinj hbegin (List.cons.inj h).2
      exact ⟨rfl, hrest⟩
  | @object members hmembers ih =>
    have hshape := Exact.shape_eq (.object hmembers) hw h
    cases hw <;> try cases hshape
    next members' hmembers' =>
      simp only [compactChars, compactMembers_eq, List.cons_append, List.append_assoc,
        List.nil_append] at h
      have hinj : ∀ x ∈ members, ∀ y ∈ members', ∀ r r', EndsValue r → EndsValue r' →
          memberChars x ++ r = memberChars y ++ r' → x = y ∧ r = r' := by
        rintro ⟨k, v⟩ hx ⟨l, w⟩ hy r r' hr hr' h
        simp only [memberChars, List.append_assoc, List.cons_append] at h
        obtain ⟨rfl, hvalue⟩ := stringChars_append_inj h
        obtain ⟨rfl, hrest⟩ := ih _ hx (hmembers' _ hy) hr hr' (List.cons.inj hvalue).2
        exact ⟨rfl, hrest⟩
      have hbegin : ∀ x, x ∈ members ∨ x ∈ members' →
          ∃ c cs, memberChars x = c :: cs ∧ c ≠ '\x7d' :=
        fun x _ => ⟨'"', _, rfl, by decide⟩
      obtain ⟨rfl, hrest⟩ := separated_append_inj (.inr rfl) hinj hbegin (List.cons.inj h).2
      exact ⟨rfl, hrest⟩

/-- **The text of a value tells the value.** -/
theorem Exact.eq_of_compact {v w : Value} (hv : v.Exact) (hw : w.Exact)
    (h : v.compact = w.compact) : v = w := by
  have hchars : compactChars v ++ [] = compactChars w ++ [] := by
    rw [List.append_nil, List.append_nil]
    exact String.ofList_injective h
  exact (hv.append_inj hw endsValue_nil endsValue_nil hchars).1

end Value

end SchemaLoom.Json
