/-
  The shapes of JSON values, and that they are read from a text.

  `Reader.Takes height r v a`: the reader `r` reads every text of the value `v` as
  `a`, wherever it stands and whatever its spaces, if more than `height` levels
  may still nest.

  * `takes_string`, `takes_boolean`, `takes_natural`: the leaves;
  * `Takes.optional`, `Takes.list`, `Takes.record`, `Takes.mapping`: the shapes;
  * `takes_variant`: names;
  * `takes_value`: any value;
  * `Takes.run`: the whole text.
-/
import SchemaLoom.Proofs.Json.Lawful
import SchemaLoom.Proofs.Json.Tokens

namespace SchemaLoom.Json

open Source (Stops)

/-! ## What stands around a value -/

theorem ne_of_shapeOf? {c d : Char} {shape : Shape} (h : shapeOf? c = some shape)
    (hd : shapeOf? d = none) : c ≠ d := by
  rintro rfl
  rw [h] at hd
  cases hd

/-- No space begins a value. -/
theorem isSpace_of_shapeOf? {c : Char} {shape : Shape} (h : shapeOf? c = some shape) :
    isSpace c = false := by
  simp only [isSpace, Bool.or_eq_false_iff, beq_eq_false_iff_ne]
  exact ⟨⟨⟨ne_of_shapeOf? h (by decide), ne_of_shapeOf? h (by decide)⟩,
    ne_of_shapeOf? h (by decide)⟩, ne_of_shapeOf? h (by decide)⟩

theorem Reader.isNumberPart_of_isSpace {c : Char} (h : isSpace c = true) :
    isNumberPart c = false := by
  simp only [isSpace, Bool.or_eq_true, beq_iff_eq] at h
  rcases h with ((rfl | rfl) | rfl) | rfl <;> decide

/-- A number ends before spaces and marks. -/
theorem stops_spaces {spaces rest : List Char} {c : Char} (hs : Spaces spaces)
    (hc : Reader.isNumberPart c = false) : Stops Reader.isNumberPart (spaces ++ c :: rest) := by
  cases spaces with
  | nil => exact .cons hc
  | cons d spaces =>
    rw [Spaces, List.all_cons, Bool.and_eq_true] at hs
    exact .cons (Reader.isNumberPart_of_isSpace hs.1)

section
variable {α : Type} {text : α → List Char → Prop} {xs : List α} {first : Bool} {cs rest : List Char}

/-- A number ends before the next item and before the end of a list. -/
theorem Row.stops {close : Char} (hclose : Reader.isNumberPart close = false)
    (h : Row text false xs cs) : Stops Reader.isNumberPart (cs ++ close :: rest) := by
  cases h with
  | done hs => exact stops_spaces hs hclose
  | item hl _ _ =>
    cases hl with
    | more hb _ =>
      simp only [List.append_assoc, List.cons_append]
      exact stops_spaces hb (by decide)

/-- There are no more items than characters. -/
theorem Row.length_le (hne : ∀ x cs, text x cs → cs ≠ []) (h : Row text first xs cs) :
    xs.length ≤ cs.length := by
  induction h with
  | done _ => exact Nat.zero_le _
  | item _ hx _ ih =>
    have := List.length_pos_of_ne_nil (hne _ _ hx)
    simp only [List.length_append, List.length_cons]
    omega

end

theorem Written.ne_nil {v : Value} {cs : List Char} (h : Written v cs) : cs ≠ [] := by
  obtain ⟨c, ds, rfl, -⟩ := h.exists_begin
  exact List.cons_ne_nil c ds

theorem WrittenMember.ne_nil {m : String × Value} {cs : List Char} (h : WrittenMember m cs) :
    cs ≠ [] := by
  cases h with
  | member => exact List.cons_ne_nil _ _

theorem length_le_stringChars (s : String) : s.toList.length ≤ (stringChars s).length := by
  have hpos : ∀ c, 0 < (escapeChar c).length := by
    intro c
    have h := escaped_escapeChar c
    generalize escapeChar c = word at h
    cases h <;> exact Nat.succ_pos _
  have hlist : ∀ cs : List Char, cs.length ≤ (cs.flatMap escapeChar).length := by
    intro cs
    induction cs with
    | nil => exact Nat.le_refl _
    | cons c cs ih =>
      have := hpos c
      simp only [List.flatMap_cons, List.length_append, List.length_cons]
      omega
  have := hlist s.toList
  simp only [stringChars, List.length_cons, List.length_append]
  omega

namespace Reader

variable {α β κ σ : Type} {height depth size fuel : Nat} {first : Bool} {cs mid rest : List Char}

/-! ## Brackets and marks -/

theorem nested_reads {body : Reader α} {a : α} (hd : 1 < depth)
    (h : Reads (depth - 1) size body cs rest a) : Reads depth size (nested body) cs rest a := by
  intro offset
  obtain ⟨o, ho⟩ := h offset
  refine ⟨o, ?_⟩
  rw [nested, if_neg (Nat.not_le.2 hd)]
  exact bind_eq_ok.2 ⟨_, ho, rfl⟩

theorem closing_reads {close : Cursor → Cursor × Option Failure} {body : Reader α} {a : α}
    (hc : ∀ offset, ∃ offset', close ⟨mid, offset, depth, size⟩ =
      (⟨rest, offset', depth, size⟩, none))
    (h : Reads depth size body cs mid a) : Reads depth size (closing close body) cs rest a := by
  intro offset
  obtain ⟨o, ho⟩ := h offset
  obtain ⟨o', ho'⟩ := hc o
  refine ⟨o', ?_⟩
  rw [closing, ho]
  simp only [ho']
  rfl

/-- An array, behind its opening bracket. -/
theorem inBrackets_reads {body : Reader α} {a : α} (hd : 1 < depth)
    (h : Reads (depth - 1) size body cs (']' :: rest) a) :
    Reads depth size (inBrackets body) ('[' :: cs) rest a :=
  nested_reads hd (closing_reads (fun _ => ⟨_, rfl⟩) (.bind advance_reads h))

/-- An object, behind its opening bracket. -/
theorem inBraces_reads {body : Reader α} {a : α} (hd : 1 < depth)
    (h : Reads (depth - 1) size body cs ('\x7d' :: rest) a) :
    Reads depth size (inBraces body) ('\x7b' :: cs) rest a :=
  nested_reads hd (closing_reads (fun _ => ⟨_, rfl⟩) (.bind advance_reads h))

theorem colon_reads {spaces : List Char} (hs : Spaces spaces) :
    Reads depth size colon (spaces ++ ':' :: cs) cs () :=
  (peekToken_reads hs (.cons (by decide))).bind advance_reads

/-- One item more. -/
theorem hasItem_reads {lead : List Char} {c : Char} {shape : Shape} (hl : Lead first lead)
    (hc : shapeOf? c = some shape) :
    Reads depth size (hasItem first) (lead ++ c :: cs) (c :: cs) true := by
  have hspace := isSpace_of_shapeOf? hc
  have hne := ne_of_shapeOf? (d := ']') hc (by decide)
  cases hl with
  | first hs =>
    refine (peekToken_reads hs (.cons hspace)).bind ?_
    rw [List.head?_cons]
    split
    next h => cases h
    next h => exact absurd (Option.some.inj h) hne
    next => exact .pure
  | more hb ha =>
    rw [List.append_assoc]
    refine (peekToken_reads hb (.cons (by decide))).bind (.bind advance_reads ?_)
    refine (peekToken_reads ha (.cons hspace)).bind ?_
    rw [List.head?_cons]
    split
    next h => exact absurd (Option.some.inj h) hne
    next => exact .pure
    next h => cases h

/-- The end of an array. -/
theorem hasItem_ends {spaces : List Char} (hs : Spaces spaces) :
    Reads depth size (hasItem first) (spaces ++ ']' :: cs) (']' :: cs) false :=
  (peekToken_reads hs (.cons (by decide))).bind .pure

/-- One member more. -/
theorem hasMember_reads {lead : List Char} (hl : Lead first lead) :
    Reads depth size (hasMember first) (lead ++ '"' :: cs) ('"' :: cs) true := by
  cases hl with
  | first hs => exact (peekToken_reads hs (.cons (by decide))).bind .pure
  | more hb ha =>
    rw [List.append_assoc]
    refine (peekToken_reads hb (.cons (by decide))).bind (.bind advance_reads ?_)
    exact (peekToken_reads ha (.cons (by decide))).bind .pure

/-- The end of an object. -/
theorem hasMember_ends {spaces : List Char} (hs : Spaces spaces) :
    Reads depth size (hasMember first) (spaces ++ '\x7d' :: cs) ('\x7d' :: cs) false :=
  (peekToken_reads hs (.cons (by decide))).bind .pure

/-! ## Leaves -/

/-- The reader reads every text of the value `v` as `a`, where more than `height`
    levels may nest. -/
def Takes (height : Nat) (r : Reader α) (v : Value) (a : α) : Prop :=
  ∀ ⦃depth size spaces text rest⦄, height < depth → Spaces spaces → Written v text →
    Stops isNumberPart rest → text.length ≤ size →
    Reads depth size r (spaces ++ (text ++ rest)) rest a

/-- A value without spaces in front of it. -/
theorem Takes.here {r : Reader α} {v : Value} {a : α} {text : List Char} (h : Takes height r v a)
    (hd : height < depth) (hw : Written v text) (hr : Stops isNumberPart rest)
    (hl : text.length ≤ size) : Reads depth size r (text ++ rest) rest a :=
  h hd spaces_nil hw hr hl

/-- What is read is put to use. -/
theorem Takes.bind {r : Reader α} {f : α → Reader β} {v : Value} {a : α} {b : β}
    (h : Takes height r v a) (hf : f a = Pure.pure b) : Takes height (r >>= f) v b :=
  fun _ _ _ _ _ hd hs hw hr hl => (h hd hs hw hr hl).bind (hf ▸ .pure)

/-- A string is read from its quotes on. -/
theorem stringAs_reads {spaces : List Char} {s : String} (wanted : String) (hs : Spaces spaces)
    (hl : s.toList.length ≤ size) :
    Reads depth size (stringAs wanted) (spaces ++ (stringChars s ++ rest)) rest s :=
  (peekValue_reads hs (by decide)).bind (stringToken_reads hl)

theorem takes_string (wanted : String) (s : String) :
    Takes height (stringAs wanted) (.string s) s := by
  intro depth size spaces text rest hd hs hw hr hl
  cases hw with
  | string s => exact stringAs_reads wanted hs (Nat.le_trans (length_le_stringChars s) hl)

theorem takes_boolean (b : Bool) : Takes height boolean (.bool b) b := by
  intro depth size spaces text rest hd hs hw hr hl
  cases hw with
  | bool b =>
    cases b with
    | true =>
      refine (peekValue_reads hs (by decide)).bind (.bind advance_reads ?_)
      exact (literal_reads _).bind .pure
    | false =>
      refine (peekValue_reads hs (by decide)).bind (.bind advance_reads ?_)
      exact (literal_reads _).bind .pure

/-- The first character of an integer. -/
theorem exists_integer_begin (i : Int) : ∃ c ds, (integerText i).toList = c :: ds ∧
    shapeOf? c = some .number ∧ (c = '-' ∨ c.isDigit = true) := by
  obtain ⟨c, ds, hc, hshape⟩ := (Written.integer i).exists_begin
  refine ⟨c, ds, hc, hshape, ?_⟩
  have hpart : isIntegerPart c = true := isIntegerPart_of_mem (hc ▸ List.mem_cons_self)
  rwa [isIntegerPart, Bool.or_eq_true, beq_iff_eq] at hpart

theorem takes_natural {n limit : Nat} (wanted : String) (hn : n ≤ limit)
    (hlimit : limit ≤ maxUnsigned) : Takes height (natural limit wanted) (.nat n) n := by
  intro depth size spaces text rest hd hs hw hr hl
  cases hw with
  | integer =>
    obtain ⟨c, ds, hc, hshape, hbegin⟩ := exists_integer_begin n
    have hnumber : Reads depth size number ((integerText n).toList ++ rest) rest (.integer n) :=
      number_reads (by omega) (by omega) hr
    rw [hc] at hnumber ⊢
    refine (peekValue_reads hs (isSpace_of_shapeOf? hshape)).bind ?_
    rw [if_pos hbegin]
    refine hnumber.bind ?_
    have hrange : Number.inRange limit wanted (.integer n) = .ok n := by
      rw [Number.inRange, if_pos (by omega), Int.toNat_natCast]
    rw [hrange]
    exact .pure

/-! ## Shapes -/

/-- A value that is not `null` is read where it may be absent. -/
theorem Takes.optional {r : Reader α} {v : Value} {a : α} (h : Takes height r v a)
    (hv : v.shape ≠ .null) : Takes height (optional r) v (some a) := by
  intro depth size spaces text rest hd hs hw hr hl
  obtain ⟨c, cs, rfl, hc⟩ := hw.exists_begin
  have hne : c ≠ 'n' := by
    rintro rfl
    exact hv (Option.some.inj hc).symm
  have hhead : ¬ (c :: (cs ++ rest)).head? = some 'n' := fun h => hne (Option.some.inj h)
  rw [List.cons_append]
  refine (peekToken_reads hs (.cons (isSpace_of_shapeOf? hc))).bind ?_
  rw [if_neg hhead]
  exact (h.here hd hw hr hl).bind .pure

/-- The items of an array are read, in enough room. -/
theorem items_reads {item : Reader α} {vs : List Value} {as : List α}
    (h : List.Forall₂ (Takes height item) vs as) (hrow : Row Written first vs cs)
    (hd : height < depth) (hf : vs.length < fuel) (hl : cs.length ≤ size) :
    Reads depth size (items item fuel first) (cs ++ ']' :: rest) (']' :: rest) as := by
  induction h generalizing first cs fuel with
  | nil =>
    obtain ⟨fuel, rfl⟩ := Nat.exists_eq_add_one.2 hf
    cases hrow with
    | done hs => exact (hasItem_ends hs).bind .pure
  | cons h _ ih =>
    obtain ⟨fuel, rfl⟩ := Nat.exists_eq_add_one.2 (Nat.zero_lt_of_lt hf)
    cases hrow with
    | item hlead hw hmore =>
      obtain ⟨c, cs, rfl, hc⟩ := hw.exists_begin
      simp only [List.length_append] at hl
      rw [List.append_assoc, List.append_assoc]
      refine (hasItem_reads hlead hc).bind ?_
      refine (h.here hd hw (hmore.stops (by decide)) (by omega)).bind ?_
      exact (ih hmore (Nat.lt_of_succ_lt_succ hf) (by omega)).bind .pure

/-- **An array is read if its items are.** -/
theorem Takes.list {item : Reader α} {vs : List Value} {as : List α}
    (h : List.Forall₂ (Takes height item) vs as) :
    Takes (height + 1) (list item) (.array vs) as := by
  intro depth size spaces text rest hd hs hw hr hl
  cases hw with
  | @array _ cs hrow =>
    have hlength := hrow.length_le fun _ _ => Written.ne_nil
    simp only [List.length_cons, List.length_append] at hl
    rw [List.cons_append, List.append_assoc]
    refine (peekValue_reads hs (by decide)).bind (inBrackets_reads (by omega) ?_)
    exact .get fun _ => items_reads h hrow (by omega) (by dsimp only; omega) (by omega)

/-! ## Records -/

/-- The members of a record are read, in enough room. -/
theorem recordMembers_reads {all fields : List (Field Reader σ)} {members : List (String × Value)}
    {s t : σ} {seen : List String} (h : Fills (Takes height) fields members s t)
    (ha : Awaits all fields seen) (hrow : Row WrittenMember first members cs)
    (hd : height < depth) (hf : members.length < fuel) (hl : cs.length ≤ size) :
    Reads depth size (recordMembers all fuel first seen s) (cs ++ '\x7d' :: rest)
      ('\x7d' :: rest) t := by
  induction h generalizing first cs fuel seen with
  | done =>
    obtain ⟨fuel, rfl⟩ := Nat.exists_eq_add_one.2 hf
    cases hrow with
    | done hs =>
      refine (hasMember_ends hs).bind ?_
      simp only [Bool.false_eq_true, if_false, ha.missingField?_eq]
      exact .pure
  | @given f _ _ _ _ _ _ htakes _ ih =>
    obtain ⟨fuel, rfl⟩ := Nat.exists_eq_add_one.2 (Nat.zero_lt_of_lt hf)
    cases hrow with
    | item hlead hm hmore =>
      cases hm with
      | member hb hafter hw =>
        have hkey := length_le_stringChars f.name
        simp only [List.length_append, List.length_cons] at hl
        simp only [List.append_assoc, List.cons_append]
        refine (hasMember_reads hlead).bind ?_
        refine (stringToken_reads (by omega)).bind ?_
        simp only [ha.find?_eq, ha.contains_eq, Bool.false_eq_true, if_false]
        refine (colon_reads hb).bind ?_
        refine (htakes hd hafter hw (hmore.stops (by decide)) (by omega)).bind ?_
        exact ih ha.given hmore (Nat.lt_of_succ_lt_succ hf) (by omega)
  | absent hp _ ih => exact ih (ha.absent hp) hrow hf hl

/-- **A record is read if its members fill its fields.** -/
theorem Takes.record {wanted : String} {fields : List (Field Reader σ)}
    {members : List (String × Value)} {start t : σ} (hn : (fields.map Field.name).Nodup)
    (h : Fills (Takes height) fields members start t) :
    Takes (height + 1) (record wanted fields start) (.object members) t := by
  intro depth size spaces text rest hd hs hw hr hl
  cases hw with
  | @object _ cs hrow =>
    have hlength := hrow.length_le fun _ _ => WrittenMember.ne_nil
    simp only [List.length_cons, List.length_append] at hl
    rw [List.cons_append, List.append_assoc]
    refine (peekValue_reads hs (by decide)).bind (inBraces_reads (by omega) ?_)
    exact .get fun _ => recordMembers_reads h (.start hn) hrow (by omega) (by dsimp only; omega)
      (by omega)

/-! ## Objects -/

/-- The reader reads the name `k` of a member as `x`. -/
def TakesName (key : Reader κ) (k : String) (x : κ) : Prop :=
  ∀ ⦃depth size rest⦄, k.toList.length ≤ size →
    Reads depth size key (stringChars k ++ rest) rest x

/-- The members of an object are read, in enough room. -/
theorem members_reads {key : Reader κ} {item : Reader α} {ms : List (String × Value)}
    {ps : List (κ × α)}
    (h : List.Forall₂ (fun m p => TakesName key m.1 p.1 ∧ Takes height item m.2 p.2) ms ps)
    (hrow : Row WrittenMember first ms cs) (hd : height < depth) (hf : ms.length < fuel)
    (hl : cs.length ≤ size) :
    Reads depth size (members key item fuel first) (cs ++ '\x7d' :: rest) ('\x7d' :: rest) ps := by
  induction h generalizing first cs fuel with
  | nil =>
    obtain ⟨fuel, rfl⟩ := Nat.exists_eq_add_one.2 hf
    cases hrow with
    | done hs => exact (hasMember_ends hs).bind .pure
  | cons h _ ih =>
    obtain ⟨hkey, hitem⟩ := h
    obtain ⟨fuel, rfl⟩ := Nat.exists_eq_add_one.2 (Nat.zero_lt_of_lt hf)
    cases hrow with
    | item hlead hm hmore =>
      cases hm with
      | @member k v before after text hb ha hw =>
        have hname := length_le_stringChars k
        simp only [List.length_append, List.length_cons] at hl
        simp only [List.append_assoc, List.cons_append]
        refine (hasMember_reads hlead).bind ((hkey (by dsimp only; omega)).bind ?_)
        refine (colon_reads hb).bind ?_
        refine (hitem hd ha hw (hmore.stops (by decide)) (by omega)).bind ?_
        exact (ih hmore (Nat.lt_of_succ_lt_succ hf) (by omega)).bind .pure

/-- **An object is read if its members are.** -/
theorem Takes.mapping {key : Reader κ} {item : Reader α} {ms : List (String × Value)}
    {ps : List (κ × α)}
    (h : List.Forall₂ (fun m p => TakesName key m.1 p.1 ∧ Takes height item m.2 p.2) ms ps) :
    Takes (height + 1) (mapping key item) (.object ms) ps := by
  intro depth size spaces text rest hd hs hw hr hl
  cases hw with
  | @object _ cs hrow =>
    have hlength := hrow.length_le fun _ _ => WrittenMember.ne_nil
    simp only [List.length_cons, List.length_append] at hl
    rw [List.cons_append, List.append_assoc]
    refine (peekValue_reads hs (by decide)).bind (inBraces_reads (by omega) ?_)
    exact .get fun _ => members_reads h hrow (by omega) (by dsimp only; omega) (by omega)

/-! ## Names from a list -/

section
variable {names : List (String × α)} {k : String} {a : α} (h : names.lookup k = some a)
include h

theorem namedBy_eq_ok : namedBy names k = .ok a := by
  rw [namedBy, h]

theorem takes_name : Takes height (name names) (.string k) a :=
  (takes_string _ k).bind (by rw [namedBy_eq_ok h])

/-- A name is read from its quotes on. -/
theorem variant_reads {spaces : List Char} (hs : Spaces spaces) (hl : k.toList.length ≤ size) :
    Reads depth size (variant names) (spaces ++ (stringChars k ++ rest)) rest a := by
  refine (peekToken_reads hs (.cons (by decide))).bind ?_
  refine (stringAs_reads _ spaces_nil hl).bind ?_
  rw [namedBy_eq_ok h]
  exact .pure

theorem takes_variant : Takes height (variant names) (.string k) a := by
  intro depth size spaces text rest hd hs hw hr hl
  cases hw with
  | string => exact variant_reads h hs (Nat.le_trans (length_le_stringChars k) hl)

theorem takesName_variant : TakesName (variant names) k a :=
  fun _ _ _ hl => variant_reads h spaces_nil hl

end

/-! ## Any value -/

/-- A leaf is read where any value may stand. -/
theorem valueWithin_reads {n : Nat} {spaces : List Char} {c : Char} {v : Value} (hn : 0 < n)
    (hs : Spaces spaces) (hc : isSpace c = false) (ha : c ≠ '[') (ho : c ≠ '\x7b')
    (h : Reads depth size (leaf? c) (c :: cs) rest (some v)) :
    Reads depth size (valueWithin n) (spaces ++ c :: cs) rest v := by
  obtain ⟨n, rfl⟩ := Nat.exists_eq_add_one.2 hn
  rw [valueWithin]
  refine (peekValue_reads hs hc).bind ?_
  rw [if_neg ha, if_neg ho]
  exact h.bind .pure

theorem takes_leaf {n : Nat} {v : Value} (h : Leaf v) (hn : 0 < n) :
    Takes height (valueWithin n) v v := by
  intro depth size spaces text rest hd hs hw hr hl
  cases h with
  | bool b =>
    cases hw with
    | bool b =>
      cases b with
      | true =>
        exact valueWithin_reads hn hs (by decide) (by decide) (by decide)
          (.bind advance_reads ((literal_reads _).bind .pure))
      | false =>
        exact valueWithin_reads hn hs (by decide) (by decide) (by decide)
          (.bind advance_reads ((literal_reads _).bind .pure))
  | @integer i hlow hhigh =>
    cases hw with
    | integer =>
      obtain ⟨c, ds, hc, hshape, hbegin⟩ := exists_integer_begin i
      have hnumber : Reads depth size number ((integerText i).toList ++ rest) rest (.integer i) :=
        number_reads hlow hhigh hr
      rw [hc] at hnumber ⊢
      have hne : ∀ d, shapeOf? d ≠ some .number → c ≠ d := by
        rintro d hd rfl
        exact hd hshape
      refine valueWithin_reads hn hs (isSpace_of_shapeOf? hshape) (hne '[' (by decide))
        (hne '\x7b' (by decide)) ?_
      rw [leaf?, if_neg (hne 'n' (by decide)), if_neg (hne 't' (by decide)),
        if_neg (hne 'f' (by decide)), if_pos hbegin]
      exact hnumber.bind .pure
  | string s =>
    cases hw with
    | string s =>
      refine valueWithin_reads hn hs (by decide) (by decide) (by decide) ?_
      exact (stringToken_reads (Nat.le_trans (length_le_stringChars s) hl)).bind .pure

/-- A value is read within the levels that it has. -/
theorem takes_valueWithin {n : Nat} {v : Value} (h : Within height v) (hn : height < n) :
    Takes height (valueWithin n) v v := by
  induction h generalizing n with
  | leaf h => exact takes_leaf h (Nat.zero_lt_of_lt hn)
  | @array height vs _ ih =>
    obtain ⟨n, rfl⟩ := Nat.exists_eq_add_one.2 (Nat.zero_lt_of_lt hn)
    have hitems : List.Forall₂ (Takes height (valueWithin n)) vs vs :=
      List.forall₂_same.2 fun v hv => ih v hv (by omega)
    intro depth size spaces text rest hd hs hw hr hl
    cases hw with
    | @array _ cs hrow =>
      have hlength := hrow.length_le fun _ _ => Written.ne_nil
      simp only [List.length_cons, List.length_append] at hl
      rw [valueWithin, List.cons_append, List.append_assoc]
      refine (peekValue_reads hs (by decide)).bind ((inBrackets_reads (by omega) ?_).bind .pure)
      exact .get fun _ => items_reads hitems hrow (by omega) (by dsimp only; omega) (by omega)
  | @object height ms _ ih =>
    obtain ⟨n, rfl⟩ := Nat.exists_eq_add_one.2 (Nat.zero_lt_of_lt hn)
    have hmembers : List.Forall₂ (fun m p => TakesName stringToken m.1 p.1 ∧
        Takes height (valueWithin n) m.2 p.2) ms ms :=
      List.forall₂_same.2 fun m hm => ⟨fun _ _ _ => stringToken_reads, ih m hm (by omega)⟩
    intro depth size spaces text rest hd hs hw hr hl
    cases hw with
    | @object _ cs hrow =>
      have hlength := hrow.length_le fun _ _ => WrittenMember.ne_nil
      simp only [List.length_cons, List.length_append] at hl
      rw [valueWithin, List.cons_append, List.append_assoc]
      refine (peekValue_reads hs (by decide)).bind ((inBraces_reads (by omega) ?_).bind .pure)
      exact .get fun _ => members_reads hmembers hrow (by omega) (by dsimp only; omega) (by omega)

/-- **A value that does not nest too deep is read.** -/
theorem takes_value {v : Value} (h : Within height v) : Takes height value v v :=
  fun _ _ _ _ _ hd hs hw hr hl => .get fun _ => takes_valueWithin h hd hd hs hw hr hl

/-! ## Texts -/

/-- **A whole text is read.** -/
theorem Takes.run {r : Reader α} {v : Value} {a : α} {text : String} (h : Takes height r v a)
    (hd : height < depthLimit) (hw : Written v text.toList) : Reader.run r text = .ok a := by
  have hend : ∀ p, Stops p [] := fun p => by simp [Stops]
  unfold Reader.run
  extract_lets whole located
  have hread : Reads depthLimit text.length whole (text.toList ++ []) [] a :=
    (h.here hd hw (hend _) (Nat.le_of_eq String.length_toList)).bind
      ((peekToken_reads spaces_nil (hend _)).bind .pure)
  rw [List.append_nil] at hread
  obtain ⟨offset, ho⟩ := hread 0
  rw [Cursor.ofString, ho]

end Reader

end SchemaLoom.Json
