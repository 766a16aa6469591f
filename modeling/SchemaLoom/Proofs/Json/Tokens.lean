/-
  The tokens of a JSON text, and that they are read.

  `Reads depth size r cs rest a`: on the characters `cs` the reader `r` succeeds,
  leaves `rest` and answers with `a`, where values may nest `depth` levels more in
  a text of `size` characters.  Offsets play no part, since only faults tell them.

  * `stringToken_reads`: strings;
  * `number_reads`: the integers that are kept as they are.
-/
import Mathlib.Data.List.Basic
import SchemaLoom.Proofs.Json.Compact
import SchemaLoom.Proofs.Results

namespace SchemaLoom.Json

/-- A text that is given by its characters. -/
theorem Cursor.ofString_ofList (cs : List Char) :
    ofString (String.ofList cs) = ⟨cs, 0, depthLimit, cs.length⟩ := by
  rw [ofString, String.toList_ofList, String.length_ofList]

namespace Reader

open Source (Stops)

variable {α β : Type} {depth size fuel : Nat} {cs mid rest : List Char}

/-- The reader takes the characters `cs` up to `rest` and answers with `a`. -/
def Reads (depth size : Nat) (r : Reader α) (cs rest : List Char) (a : α) : Prop :=
  ∀ offset, ∃ offset', r ⟨cs, offset, depth, size⟩ = .ok (a, ⟨rest, offset', depth, size⟩)

theorem Reads.pure {a : α} : Reads depth size (Pure.pure a) cs cs a := fun offset => ⟨offset, rfl⟩

theorem Reads.bind {r : Reader α} {f : α → Reader β} {a : α} {b : β}
    (hr : Reads depth size r cs mid a) (hf : Reads depth size (f a) mid rest b) :
    Reads depth size (r >>= f) cs rest b := by
  intro offset
  obtain ⟨o, ho⟩ := hr offset
  obtain ⟨o', ho'⟩ := hf o
  exact ⟨o', bind_eq_ok.2 ⟨_, ho, ho'⟩⟩

/-- A reader that looks at the cursor. -/
theorem Reads.get {f : Cursor → Reader β} {b : β}
    (h : ∀ offset, Reads depth size (f ⟨cs, offset, depth, size⟩) cs rest b) :
    Reads depth size (MonadState.get >>= f) cs rest b :=
  fun offset => h offset offset

/-! ## Characters -/

theorem peek_reads : Reads depth size peek cs cs cs.head? := fun offset => ⟨offset, rfl⟩

theorem advance_reads {c : Char} : Reads depth size advance (c :: cs) cs () := fun _ => ⟨_, rfl⟩

/-- Spaces in front of a token are skipped. -/
theorem peekToken_reads {spaces : List Char} (hs : Spaces spaces) (h : Stops isSpace cs) :
    Reads depth size peekToken (spaces ++ cs) cs cs.head? := by
  refine Reads.bind (a := ()) (fun offset => ⟨offset + spaces.length, ?_⟩) peek_reads
  have hc : Cursor.skipSpace ⟨spaces ++ cs, offset, depth, size⟩ =
      ⟨cs, offset + spaces.length, depth, size⟩ := by
    rw [Cursor.skipSpace, Source.dropWhile_append_stops hs h, Source.takeWhile_append_stops hs h]
  exact congrArg (fun c => Except.ok ((), c)) hc

theorem peekValue_reads {spaces : List Char} {c : Char} (hs : Spaces spaces)
    (hc : isSpace c = false) : Reads depth size peekValue (spaces ++ c :: cs) (c :: cs) c :=
  (peekToken_reads hs (.cons hc)).bind .pure

theorem literal_reads (word : List Char) : Reads depth size (literal word) (word ++ cs) cs () := by
  induction word with
  | nil => exact .pure
  | cons c word ih =>
    refine .bind peek_reads ?_
    simp only [List.cons_append, List.head?_cons, if_pos]
    exact .bind advance_reads ih

/-! ## Strings -/

/-- An escape of one letter. -/
theorem escape_reads {letter out : Char} (hu : letter ≠ 'u') (h : shortEscape? letter = some out) :
    Reads depth size escape (letter :: cs) cs out := by
  refine .bind peek_reads ?_
  simp only [List.head?_cons, h]
  exact .bind advance_reads .pure

/-- Four digits of a code unit. -/
theorem hexFour_reads {w x y z : Char} {a b c d : Nat}
    (h : [w, x, y, z].mapM hexValue? = some [a, b, c, d]) :
    Reads depth size hexFour (w :: x :: y :: z :: cs) cs (((a * 16 + b) * 16 + c) * 16 + d) := by
  have hb : ¬ byteCount [w, x, y, z] < 4 := by
    simp only [byteCount, List.foldr_cons, List.foldr_nil]
    have := w.utf8Size_pos
    have := x.utf8Size_pos
    have := y.utf8Size_pos
    have := z.utf8Size_pos
    omega
  refine fun offset => ⟨offset + 4, ?_⟩
  rw [hexFour]
  simp only [List.take_succ_cons, List.take_zero, if_neg hb, h]
  rfl

/-- A control character is written by its code. -/
theorem controlEscape_reads {c : Char} (hc : c.toNat < 32) :
    Reads depth size escape ('u' :: '0' :: '0' :: Text.hexDigit (c.toNat / 16) ::
      Text.hexDigit (c.toNat % 16) :: cs) cs c := by
  have hhigh := hexValue?_hexDigit (c.toNat / 16) (by omega)
  have hlow := hexValue?_hexDigit (c.toNat % 16) (by omega)
  have hfour : ['0', '0', Text.hexDigit (c.toNat / 16), Text.hexDigit (c.toNat % 16)].mapM
      hexValue? = some [0, 0, c.toNat / 16, c.toNat % 16] := by
    simp [hhigh, hlow, show hexValue? '0' = some 0 by decide]
  have hn : ((0 * 16 + 0) * 16 + c.toNat / 16) * 16 + c.toNat % 16 = c.toNat := by omega
  refine .bind peek_reads (.bind advance_reads ((hexFour_reads hfour).bind ?_))
  rw [hn, if_neg (by omega), if_pos (by omega), Char.ofNat_toNat]
  exact .pure

/-- One character more of a string. -/
theorem stringRest_cons {done : List Char} {c : Char} {out : List Char}
    (h : Reads depth size (stringRest fuel (c :: done)) cs rest out) :
    Reads depth size (stringRest (fuel + 1) done) (escapeChar c ++ cs) rest out := by
  have hescape : ∀ {word}, Reads depth size escape (word ++ cs) cs c →
      Reads depth size (stringRest (fuel + 1) done) ('\\' :: word ++ cs) rest out :=
    fun hw => .bind peek_reads (.bind advance_reads (hw.bind h))
  have hc := escaped_escapeChar c
  generalize escapeChar c = word at hc
  cases hc with
  | letter hu hl => exact hescape (escape_reads hu hl)
  | code hc => exact hescape (controlEscape_reads hc)
  | plain hquote hslash hc =>
    refine .bind peek_reads ?_
    simp only [List.singleton_append, List.head?_cons, Nat.not_lt.2 hc, if_false]
    exact .bind advance_reads h

/-- The characters of a string are read up to its closing quote. -/
theorem stringRest_reads {text done : List Char} (hf : text.length < fuel) :
    Reads depth size (stringRest fuel done) (text.flatMap escapeChar ++ '"' :: rest) rest
      (done.reverse ++ text) := by
  induction text generalizing fuel done with
  | nil =>
    obtain ⟨fuel, rfl⟩ := Nat.exists_eq_add_one.2 hf
    rw [List.append_nil]
    exact .bind peek_reads (.bind advance_reads .pure)
  | cons c text ih =>
    obtain ⟨fuel, rfl⟩ := Nat.exists_eq_add_one.2 (Nat.zero_lt_of_lt hf)
    rw [List.flatMap_cons, List.append_assoc]
    refine stringRest_cons ?_
    have h : Reads depth size (stringRest fuel (c :: done)) (text.flatMap escapeChar ++ '"' :: rest)
        rest ((c :: done).reverse ++ text) := ih (Nat.lt_of_succ_lt_succ hf)
    rwa [List.reverse_cons, List.append_assoc] at h

/-- **A string is read.** -/
theorem stringToken_reads {s : String} (h : s.toList.length ≤ size) :
    Reads depth size stringToken (stringChars s ++ rest) rest s := by
  rw [stringChars, List.cons_append, List.append_assoc]
  refine .bind advance_reads (.get fun _ => ?_)
  refine (stringRest_reads (Nat.lt_succ_of_le h)).bind ?_
  rw [List.reverse_nil, List.nil_append, String.ofList_toList]
  exact .pure

/-! ## Numbers -/

/-- Whether a number may go on with the character. -/
def isNumberPart (c : Char) : Bool := c.isDigit || c == '.' || c == 'e' || c == 'E'

/-- A positive number is written without leading zeros. -/
theorem head?_toDigits_ne_zero {n : Nat} (h : 0 < n) : (Nat.toDigits 10 n).head? ≠ some '0' := by
  induction n using Nat.strongRecOn with
  | ind n ih =>
    rw [Nat.toDigits_eq_if (by decide)]
    split
    next hn =>
      have hdigit : ∀ d < 10, 0 < d → [d.digitChar].head? ≠ some '0' := by decide
      exact hdigit n hn h
    next hn =>
      rw [List.head?_append_of_ne_nil _ Nat.toDigits_ne_nil]
      exact ih (n / 10) (by omega) (by omega)

/-- Digits that fit are all taken. -/
theorem significand_eq {ds : List Char} {start : Nat}
    (h : Nat.ofDigitChars 10 ds start ≤ maxUnsigned) :
    significand start ds = ⟨Nat.ofDigitChars 10 ds start, ds.length, false⟩ := by
  have hfold : ∀ (ds : List Char) (s : Significand), s.full = false →
      Nat.ofDigitChars 10 ds s.value ≤ maxUnsigned →
      ds.foldl Significand.push s =
        ⟨Nat.ofDigitChars 10 ds s.value, s.taken + ds.length, false⟩ := by
    intro ds
    induction ds with
    | nil => rintro ⟨value, taken, full⟩ rfl h; rfl
    | cons d ds ih =>
      rintro ⟨value, taken, full⟩ rfl h
      have hcons : Nat.ofDigitChars 10 (d :: ds) value =
          Nat.ofDigitChars 10 ds (value * 10 + digitValue d) := by
        rw [Nat.ofDigitChars_eq_foldl, List.foldl_cons, Nat.ofDigitChars_eq_foldl,
          Nat.mul_comm value]
        rfl
      rw [hcons] at h ⊢
      have hle : value * 10 + digitValue d ≤ maxUnsigned := by
        rw [Nat.ofDigitChars_eq_ofDigitChars_zero] at h
        have hpos : 0 < 10 ^ ds.length := Nat.pow_pos (by decide)
        have := Nat.le_mul_of_pos_left (value * 10 + digitValue d) hpos
        omega
      have hpush : Significand.push ⟨value, taken, false⟩ d =
          ⟨value * 10 + digitValue d, taken + 1, false⟩ := by
        rw [Significand.push]
        simp only [Bool.false_or, decide_eq_true_eq]
        rw [if_neg (Nat.not_lt.2 hle)]
      rw [List.foldl_cons, hpush, ih _ rfl h, List.length_cons, Nat.add_right_comm,
        Nat.add_assoc]
  have hs := hfold ds ⟨start, 0, false⟩ rfl h
  rwa [Nat.zero_add] at hs

theorem digits_reads {ds : List Char} (hd : ds.all Char.isDigit = true)
    (hr : Stops Char.isDigit rest) : Reads depth size digits (ds ++ rest) rest ds := by
  refine fun offset => ⟨offset + ds.length, ?_⟩
  rw [digits, Source.takeWhile_append_stops hd hr, Source.dropWhile_append_stops hd hr]
  rfl

/-- A number without a fraction or an exponent is the integer of its digits. -/
theorem afterDigits_reads {negative : Bool} {value : Nat} (hr : Stops isNumberPart rest)
    (hn : negative = true → 0 < value ∧ value ≤ 0x8000000000000000) :
    Reads depth size (afterDigits negative value 0) rest rest
      (.integer (if negative then -value else value)) := by
  have hdot : rest.head? ≠ some '.' := fun h => absurd (hr _ h) (by decide)
  have hmark : isExponentMark rest.head? = false := by
    rw [Bool.eq_false_iff]
    intro h
    rw [isExponentMark, Bool.or_eq_true, beq_iff_eq, beq_iff_eq] at h
    rcases h with h | h
    · exact absurd (hr _ h) (by decide)
    · exact absurd (hr _ h) (by decide)
  refine .bind peek_reads ?_
  simp only [hdot, hmark, if_false, Bool.false_eq_true, ne_eq, not_true_eq_false]
  cases negative with
  | false => exact .pure
  | true =>
    have hv : ¬ (value = 0 ∨ 0x8000000000000000 < value) := by
      have := hn rfl
      omega
    simp only [Bool.not_true, Bool.false_eq_true, if_false, hv, if_true]
    exact .pure

/-- A character that may be there. -/
theorem Reads.advance_if {b : Bool} {c : Char} {r : Reader β} {a : β}
    (h : Reads depth size r cs rest a) :
    Reads depth size (if b = true then advance >>= fun _ => r else r)
      ((if b then [c] else []) ++ cs) rest a := by
  cases b with
  | false => exact h
  | true => exact .bind advance_reads h

/-- A number is read from its sign and its digits. -/
theorem signed_reads (negative : Bool) {n : Nat} (hn : n ≤ maxUnsigned)
    (hneg : negative = true → 0 < n ∧ n ≤ 0x8000000000000000) (hr : Stops isNumberPart rest) :
    Reads depth size number ((if negative then ['-'] else []) ++ (Nat.toDigits 10 n ++ rest)) rest
      (.integer (if negative then -n else n)) := by
  have hdigits : (Nat.toDigits 10 n).all Char.isDigit = true := List.all_eq_true.2 fun c hc =>
    Nat.isDigit_of_mem_toDigits (by decide) (by decide) hc
  have hstop : Stops Char.isDigit rest := fun c hc => by
    have := hr c hc
    simp only [isNumberPart, Bool.or_eq_false_iff] at this
    exact this.1.1.1
  obtain ⟨c, ds, hc⟩ := List.exists_cons_of_ne_nil (Nat.toDigits_ne_nil (n := n) (b := 10))
  have hdigit : c.isDigit = true := List.all_eq_true.1 hdigits c (hc ▸ List.mem_cons_self)
  have hsign : (((if negative then ['-'] else []) ++ (Nat.toDigits 10 n ++ rest)).head? ==
      some '-') = negative := by
    cases negative with
    | true => rfl
    | false =>
      have hne : c ≠ '-' := by
        rintro rfl
        exact absurd hdigit (by decide)
      simp [hc, hne]
  refine .bind peek_reads ?_
  simp only [hsign]
  refine .advance_if (.bind peek_reads ?_)
  rw [hc, List.cons_append, List.head?_cons]
  by_cases h0 : n = 0
  · subst h0
    obtain ⟨rfl, rfl⟩ : '0' = c ∧ [] = ds := List.cons.inj ((Nat.toDigits_zero 10).symm.trans hc)
    have hnone : rest.head?.any Char.isDigit = false := by
      cases hrest : rest.head? with
      | none => rfl
      | some d => exact hstop d hrest
    refine .bind advance_reads (.bind peek_reads ?_)
    simp only [List.nil_append, hnone, Bool.false_eq_true, if_false]
    exact afterDigits_reads hr hneg
  · have hne : c ≠ '0' := by
      rintro rfl
      exact head?_toDigits_ne_zero (Nat.pos_of_ne_zero h0) (by rw [hc, List.head?_cons])
    have hvalue : Nat.ofDigitChars 10 (c :: ds) 0 = n := hc ▸ Nat.ofDigitChars_ten_toDigits
    split
    next h => cases h
    next h => exact absurd (Option.some.inj h) hne
    next _ d _ hd =>
      obtain rfl := Option.some.inj hd
      rw [if_pos hdigit]
      refine (digits_reads (hc ▸ hdigits) hstop).bind ?_
      rw [significand_eq (hvalue.symm ▸ hn), hvalue, Nat.sub_self]
      exact afterDigits_reads hr hneg

/-- **An integer that fits is read.** -/
theorem number_reads {i : Int} (hlow : -0x8000000000000000 ≤ i) (hhigh : i ≤ maxUnsigned)
    (hr : Stops isNumberPart rest) :
    Reads depth size number ((integerText i).toList ++ rest) rest (.integer i) := by
  have hmax : maxUnsigned = 0xffffffffffffffff := rfl
  rw [Source.toList_integerText]
  by_cases hi : i < 0
  · have h : Reads depth size number ('-' :: (Nat.toDigits 10 i.natAbs ++ rest)) rest
        (.integer (-i.natAbs)) :=
      signed_reads true (n := i.natAbs) (by omega) (fun _ => by omega) hr
    rw [if_pos hi, List.cons_append]
    rwa [show -(i.natAbs : Int) = i by omega] at h
  · have h : Reads depth size number (Nat.toDigits 10 i.natAbs ++ rest) rest
        (.integer i.natAbs) := signed_reads false (n := i.natAbs) (by omega) nofun hr
    rw [if_neg hi]
    rwa [show (i.natAbs : Int) = i by omega] at h

end Reader

end SchemaLoom.Json
