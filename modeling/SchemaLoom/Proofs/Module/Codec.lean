/-
  A written column is read back by itself.

  The text of a column may stand in blank text, and a comma may stand behind it.
  It is read as the canonical form of the column, which is written as the same
  text again, unless the enum of the column is named like a constructor: then the
  text declares a column of another kind.

  * `Column.decode_read`, `Column.decode_refused`: what is read of the text;
  * `Column.decode_exact`: when that is the canonical form.
-/
import SchemaLoom.Proofs.Module.Canonical
import SchemaLoom.Proofs.Module.RoundTrip

namespace SchemaLoom

open Source

/-! ## Texts in blank text -/

/-- Blank text around a text is trimmed. -/
theorem trim_append {before text after : List Char} (hb : before.all Text.isBlank = true)
    (ha : after.all Text.isBlank = true) (hne : text ≠ []) (hh : Stops Text.isBlank text)
    (hl : Stops Text.isBlank text.reverse) : Text.trim (before ++ (text ++ after)) = text := by
  have hfront : Stops Text.isBlank (text ++ after) := by
    rwa [Stops, List.head?_append_of_ne_nil text hne]
  have hback : after.reverse.all Text.isBlank = true := by rwa [List.all_reverse]
  rw [Text.trim, dropWhile_append_stops hb hfront, List.reverse_append,
    dropWhile_append_stops hback hl, List.reverse_reverse]

/-- Blank text in front of a text spells nothing. -/
theorem Source.Spells.blanks {blank cs : List Char} {ts : List Token}
    (hb : blank.all Text.isBlank = true) (h : Spells cs ts) : Spells (blank ++ cs) ts := by
  induction blank with
  | nil => exact h
  | cons c blank ih =>
    obtain ⟨hc, hb⟩ := Bool.and_eq_true_iff.1 (List.all_cons ▸ hb)
    exact .blank hc (ih hb)

theorem Source.Call.exists_text (c : Call) : ∃ cs, c.text.toList = cs ++ [')'] :=
  ⟨_, by rw [Call.text, String.toList_append]; rfl⟩

/-- A chain ends with the arguments of its last call. -/
theorem Source.Chain.exists_text (d : Chain) : ∃ cs, d.text.toList = cs ++ [')'] := by
  rw [Chain.text, String.toList_append]
  rcases List.eq_nil_or_concat d.rest with hr | ⟨calls, c, hr⟩
  · obtain ⟨cs, hcs⟩ := d.head.exists_text
    exact ⟨cs, by rw [hr, hcs]; exact List.append_nil _⟩
  · obtain ⟨cs, hcs⟩ := c.exists_text
    refine ⟨d.head.text.toList ++ (String.join (calls.map fun d => "." ++ d.text)).toList ++
      (".".toList ++ cs), ?_⟩
    simp [hr, hcs, String.join_append]

/-! ## Columns by themselves -/

namespace Column

/-- The text of a column with blank text around it, and with a comma behind it or
    not. -/
def listed (fragment before between after : String) (comma : Bool) : String :=
  before ++ fragment ++ between ++ (if comma then "," else "") ++ after

section
variable {c : Column} {e : EncodedColumn} {before between after : String} {comma : Bool}

theorem text_eq_fragment (h : c.encode = .ok e) : c.text = e.fragment := by rw [text, h]

/-- The text of a column begins and ends with characters that are not blank. -/
theorem ends_fragment (h : c.encode = .ok e) :
    ∃ x cs, e.fragment.toList = x :: (cs ++ [')']) ∧ Text.isBlank x = false := by
  obtain ⟨kind, hk, hi, ht⟩ := encode_eq_ok h
  rw [text_eq_fragment h] at ht
  have hn : Text.isIdentifier c.name = true :=
    checkIdentifiers_eq_ok_iff.1 hi (c.name, Text.isIdentifier c.name) (by simp [unquotedNames])
  obtain ⟨cs, hcs⟩ := (c.chain kind).exists_text
  cases hname : c.name.toList with
  | nil => simp [Text.isIdentifier, hname, Text.isIdentifierChars] at hn
  | cons x xs =>
    refine ⟨x, xs ++ (": ".toList ++ cs), ?_, ?_⟩
    · simp [ht, hname, hcs]
    · rw [Text.isIdentifier, hname, Text.isIdentifierChars, Bool.and_eq_true] at hn
      rw [Bool.eq_false_iff]
      intro hb
      rw [isIdentifierStart_of_isBlank hb] at hn
      exact absurd hn.1 Bool.false_ne_true

/-- What is left of the text behind its blank ends spells the tokens of the
    column, and of the comma. -/
theorem spells_listed (h : c.encode = .ok e) (hf : c.CallsFunction)
    (hb : (before ++ between ++ after).toList.all Text.isBlank = true) :
    Spells (Text.trim (listed e.fragment before between after comma).toList)
      (c.tokens ++ if comma then [.comma] else []) := by
  obtain ⟨x, cs, he, hx⟩ := ends_fragment h
  have hc : Closed e.fragment c.tokens := text_eq_fragment h ▸ closed_text h hf
  simp only [String.toList_append, List.all_append, Bool.and_eq_true] at hb
  obtain ⟨⟨hbefore, hbetween⟩, hafter⟩ := hb
  cases comma with
  | true =>
    have ht : (listed e.fragment before between after true).toList = before.toList ++
        ((e.fragment.toList ++ (between.toList ++ [','])) ++ after.toList) := by
      simp [listed]
    rw [ht, trim_append hbefore hafter (by simp) (by simpa [he, Stops] using hx)
      (by simp [Stops]; decide)]
    exact hc (.blanks hbetween (.mark (by decide) .done))
  | false =>
    have ht : (listed e.fragment before between after false).toList = before.toList ++
        (e.fragment.toList ++ (between.toList ++ after.toList)) := by
      simp [listed]
    have hrest : (between.toList ++ after.toList).all Text.isBlank = true := by
      rw [List.all_append, hbetween, hafter, Bool.and_self]
    rw [ht, trim_append hbefore hrest (by simp [he]) (by simpa [he, Stops] using hx)
      (by simp [he, Stops]; decide)]
    have := hc .done
    rwa [List.append_nil] at this

/-- The text of a column is read, wherever it stands. -/
theorem decode_read (h : c.encode = .ok e) (hf : c.CallsFunction) (hl : c.Legible)
    (hb : (before ++ between ++ after).toList.all Text.isBlank = true) :
    decodeColumn (listed e.fragment before between after comma) = .ok c.reread := by
  refine Parse.run_eq_ok (spells_listed h hf hb) ?_
  refine (tokens_read h hf hl ?_).seq ?_
  · cases comma <;> decide
  · cases comma with
    | true => exact .next Parse.eat_reads fun _ => .next Parse.endOfInput_reads fun _ => .pure rfl
    | false =>
      exact (Parse.eat_passes (by decide)).next fun _ =>
        .next Parse.endOfInput_reads fun _ => .pure rfl

/-- The text of a column that is not legible is not read. -/
theorem decode_refused (h : c.encode = .ok e) (hf : c.CallsFunction) (hl : ¬ c.Legible)
    (hb : (before ++ between ++ after).toList.all Text.isBlank = true) :
    ∃ fault, decodeColumn (listed e.fragment before between after comma) = .error fault := by
  refine Parse.run_eq_error (spells_listed h hf hb) (tokens_refused h hl ?_).bind
  cases comma <;> decide

end

/-- An enum that is mistaken for a type is lost. -/
theorem enumName_reread {c : Column} {type : ColumnType} (h : c.mistakenFor = some type) :
    c.reread.options.enumName = none := by
  rw [reread, h]
  rfl

/-- **A written column is read back in canonical form, exactly if its enum is told
    from the constructors**, wherever its text stands; and the canonical form is
    written as the column. -/
theorem decode_exact {c : Column} {e : EncodedColumn} {before between after : String}
    (h : c.encode = .ok e) (hf : c.CallsFunction)
    (hb : (before ++ between ++ after).toList.all Text.isBlank = true) (comma : Bool) :
    (decodeColumn (listed e.fragment before between after comma) = .ok c.canonical ↔
      ∀ n, c.options.enumName = some n → n ∉ ColumnType.all.map ColumnType.constructor) ∧
    c.canonical.encode = .ok e := by
  refine ⟨⟨fun hd n hn hmem => ?_, fun hn => ?_⟩, encode_canonical.2 h⟩
  · by_cases hl : c.Legible
    · rw [decode_read h hf hl hb, Except.ok.injEq] at hd
      obtain ⟨type, ht, rfl⟩ := List.mem_map.1 hmem
      have hm : c.mistakenFor = some type := by
        rw [mistakenFor, hn, Option.bind_some, ColumnType.ofConstructor?_constructor]
      have hcanonical : c.canonical.options.enumName = some type.constructor := by
        rw [canonical_eq]
        exact hn
      rw [← hd, enumName_reread hm] at hcanonical
      cases hcanonical
    · obtain ⟨fault, hfault⟩ : ∃ fault,
          decodeColumn (listed e.fragment before between after comma) = .error fault :=
        decode_refused h hf hl hb
      rw [hfault] at hd
      cases hd
  · have hr : c.Readable := ⟨hf, hn⟩
    rw [decode_read h hf hr.legible hb, hr.reread_eq]

/-- The column of an enum is read back if the enum is called `status`, and not if
    it is called `text`. -/
theorem decode_exact_state : ∃ e f : EncodedColumn,
    encode { name := "state", options := { enumName := some "status" } } = .ok e ∧
    encode { name := "state", options := { enumName := some "text" } } = .ok f ∧
    decodeColumn (listed e.fragment "  " " " "\n" true) =
      .ok (canonical { name := "state", options := { enumName := some "status" } }) ∧
    decodeColumn (listed f.fragment "" "" "" false) ≠
      .ok (canonical { name := "state", options := { enumName := some "text" } }) := by
  have hf : ∀ n, CallsFunction { name := "state", options := { enumName := some n } } :=
    fun _ _ h => by cases h
  refine ⟨_, _, rfl, rfl, (decode_exact rfl (hf _) (by decide) true).1.2 ?_, fun hd => ?_⟩
  · rintro n ⟨⟩
    decide
  · exact (decode_exact rfl (hf _) (by decide) false).1.1 hd "text" rfl (by decide)

end Column

end SchemaLoom
