/-
  Fragments of texts, and the tokens that they spell wherever they stand.

  * `Spells.fixed`: a fixed fragment, such as `export const `, whose tokens are
    computed;
  * `Spelled.intercalate`: fragments joined by commas;
  * `isNumeral_integerText`, `integerLiteral?_integerText`: integers are written
    as literals that denote them.
-/
import SchemaLoom.Proofs.Source.Spelling
import SchemaLoom.Source.Expression

namespace SchemaLoom.Source

variable {cs : List Char} {ts us : List Token}

/-! ## Fixed fragments -/

/-- The word in front of some tokens, if there is one. -/
def withWord? (word : List Char) (ts : List Token) : Option (List Token) :=
  if word.isEmpty then some ts
  else if Text.isIdentifierChars word then some (.identifier (String.ofList word) :: ts)
  else none

/-- The tokens of a fixed fragment of words, marks, dots and arrows, behind the
    characters of an unfinished word.  The fragment must not end in a lexeme
    that its context could prolong. -/
def fixedFrom? (word : List Char) : List Char → Option (List Token)
  | [] => if word.isEmpty then some [] else none
  | '=' :: '>' :: cs => do withWord? word (.arrow :: (← fixedFrom? [] cs))
  | '=' :: ' ' :: cs => do withWord? word (.equals :: (← fixedFrom? [] cs))
  | '.' :: cs =>
    if cs.head?.any (· != '.') then do withWord? word (.dot :: (← fixedFrom? [] cs)) else none
  | c :: cs =>
    if Text.isIdentifierPart c then fixedFrom? (word ++ [c]) cs
    else if Text.isBlank c then do withWord? word (← fixedFrom? [] cs)
    else do withWord? word ((← punctuation? c) :: (← fixedFrom? [] cs))

theorem Stops.cons {p : Char → Bool} {c : Char} (h : p c = false) : Stops p (c :: cs) := by
  simpa [Stops] using h

theorem Stops.fixed {p : Char → Bool} {text : String}
    (h : text.toList.head?.any (fun c => !p c) = true) : Stops p (text.toList ++ cs) := by
  cases ht : text.toList with
  | nil => simp [ht] at h
  | cons c rest => exact .cons (by simpa [ht] using h)

/-- A word that is ended by the next character. -/
theorem Spells.withWord {word : List Char} (h : withWord? word ts = some us)
    (hs : Stops Text.isIdentifierPart cs) (hcs : Spells cs ts) : Spells (word ++ cs) us := by
  rw [withWord?] at h
  split at h
  next hw =>
    rw [List.isEmpty_iff.1 hw]
    exact Option.some.inj h ▸ hcs
  split at h
  next hi =>
    have hn : Text.isIdentifier (String.ofList word) = true := by
      rwa [Text.isIdentifier, String.toList_ofList]
    have hw := Spells.word hn hs hcs
    rw [String.toList_ofList] at hw
    exact Option.some.inj h ▸ hw
  · cases h

theorem withWord?_append {word : List Char} (h : withWord? word ts = some us) (vs : List Token) :
    withWord? word (ts ++ vs) = some (us ++ vs) := by
  rw [withWord?] at h ⊢
  split at h
  next hw =>
    rw [if_pos hw, Option.some.inj h]
  next hw =>
    split at h
    next hi =>
      rw [if_neg hw, if_pos hi, ← Option.some.inj h, List.cons_append]
    · cases h

theorem Spells.fixedFrom {word fixed : List Char} (h : fixedFrom? word fixed = some ts)
    (hcs : Spells cs us) : Spells (word ++ (fixed ++ cs)) (ts ++ us) := by
  fun_induction fixedFrom? word fixed generalizing ts with
  | case1 word hw =>
    cases h
    rw [List.isEmpty_iff.1 hw]
    exact hcs
  | case2 => cases h
  | case3 word fixed ih =>
    obtain ⟨ts', h', hw⟩ := Option.bind_eq_some_iff.1 h
    exact .withWord (withWord?_append hw us) (.cons (by decide)) (.arrow (ih h'))
  | case4 word fixed ih =>
    obtain ⟨ts', h', hw⟩ := Option.bind_eq_some_iff.1 h
    refine .withWord (withWord?_append hw us) (.cons (by decide)) (.equals (.cons (by decide)) ?_)
    exact .blank (by decide) (ih h')
  | case5 word fixed hd ih =>
    obtain ⟨ts', h', hw⟩ := Option.bind_eq_some_iff.1 h
    refine .withWord (withWord?_append hw us) (.cons (by decide)) (.dot ?_ (ih h'))
    cases fixed with
    | nil => simp at hd
    | cons c fixed => exact .cons (by simpa using hd)
  | case6 => cases h
  | case7 word c fixed _ _ _ hc ih =>
    have := ih h
    rwa [List.append_assoc] at this
  | case8 word c fixed _ _ _ hc hb ih =>
    obtain ⟨ts', h', hw⟩ := Option.bind_eq_some_iff.1 h
    exact .withWord (withWord?_append hw us) (.cons (by simpa using hc)) (.blank hb (ih h'))
  | case9 word c fixed _ _ _ hc _ ih =>
    obtain ⟨t, ht, h⟩ := Option.bind_eq_some_iff.1 h
    obtain ⟨ts', h', hw⟩ := Option.bind_eq_some_iff.1 h
    exact .withWord (withWord?_append hw us) (.cons (by simpa using hc)) (.mark ht (ih h'))

/-- **A fixed fragment spells its tokens, whatever follows.** -/
theorem Spells.fixed {text : String} (ts : List Token) (h : fixedFrom? [] text.toList = some ts)
    (hcs : Spells cs us) : Spells (text.toList ++ cs) (ts ++ us) :=
  .fixedFrom h hcs

/-! ## Fragments -/

/-- A lexeme may end before these characters. -/
def Ends (cs : List Char) : Prop := ∀ c ∈ cs.head?, c ∈ ' ' :: '.' :: marks

theorem Ends.stops_part (h : Ends cs) : Stops Text.isIdentifierPart cs := by
  have hall : ∀ c ∈ ' ' :: '.' :: marks, Text.isIdentifierPart c = false :=
    List.all_iff_forall_prop.1 (by decide)
  exact fun c hc => hall c (h c hc)

theorem Ends.stops_digit (h : Ends cs) : Stops Char.isDigit cs := by
  have hall : ∀ c ∈ ' ' :: '.' :: marks, c.isDigit = false :=
    List.all_iff_forall_prop.1 (by decide)
  exact fun c hc => hall c (h c hc)

theorem Ends.cons {c : Char} (h : c ∈ ' ' :: '.' :: marks) : Ends (c :: cs) := by
  simpa [Ends] using h

theorem Ends.fixed {text : String} (h : text.toList.head?.any (· ∈ ' ' :: '.' :: marks) = true) :
    Ends (text.toList ++ cs) := by
  cases ht : text.toList with
  | nil => simp [ht] at h
  | cons c rest => exact .cons (by simpa [ht] using h)

/-- The fragment spells the tokens where a lexeme may end behind it. -/
def Spelled (text : String) (ts : List Token) : Prop :=
  ∀ ⦃cs us⦄, Ends cs → Spells cs us → Spells (text.toList ++ cs) (ts ++ us)

theorem Spelled.word {name : String} (h : Text.isIdentifier name = true) :
    Spelled name [.identifier name] :=
  fun _ _ he hcs => .word h he.stops_part hcs

theorem Spelled.number {digits : String} (h : isNumeral digits.toList = true) :
    Spelled digits [.number digits] :=
  fun _ _ he hcs => .number h he.stops_digit hcs

theorem Spelled.literal {text : String} : Spelled (Text.quote text) [.string text] :=
  fun _ _ _ hcs => .literal hcs

/-- The fragment spells the tokens wherever it stands. -/
def Closed (text : String) (ts : List Token) : Prop :=
  ∀ ⦃cs us⦄, Spells cs us → Spells (text.toList ++ cs) (ts ++ us)

theorem Closed.hasTokens {text : String} {ts : List Token} (h : Closed text ts) :
    HasTokens text.toList ts := by
  have hs := h .done
  rw [List.append_nil, List.append_nil] at hs
  exact hs.hasTokens

/-- Fragments on lines of their own, or with other blank text between them. -/
theorem Closed.intercalate {β : Type} {xs : List β} {text : β → String} {tokens : β → List Token}
    {sep : String} (hsep : fixedFrom? [] sep.toList = some [])
    (h : ∀ x ∈ xs, Closed (text x) (tokens x)) :
    Closed (sep.intercalate (xs.map text)) (xs.flatMap tokens) := by
  intro cs us hcs
  rw [String.toList_intercalate, List.map_map]
  induction xs with
  | nil => exact hcs
  | cons x xs ih =>
    obtain ⟨hx, hxs⟩ := List.forall_mem_cons.1 h
    cases xs with
    | nil => simpa using hx hcs
    | cons y ys =>
      simp only [List.map_cons, List.intercalate_cons_cons, List.append_assoc,
        List.flatMap_cons] at ih ⊢
      exact hx (.fixed [] hsep (ih hxs))

/-- Fragments joined by commas. -/
theorem Spelled.intercalate {β : Type} {xs : List β} {text : β → String} {tokens : β → List Token}
    (h : ∀ x ∈ xs, Spelled (text x) (tokens x)) :
    Spelled (", ".intercalate (xs.map text)) ([Token.comma].intercalate (xs.map tokens)) := by
  intro cs us he hcs
  rw [String.toList_intercalate, List.map_map]
  induction xs with
  | nil => exact hcs
  | cons x xs ih =>
    obtain ⟨hx, hxs⟩ := List.forall_mem_cons.1 h
    cases xs with
    | nil => simpa using hx he hcs
    | cons y ys =>
      simp only [List.map_cons, List.intercalate_cons_cons, List.append_assoc] at ih ⊢
      exact hx (.cons (by decide)) (.fixed [.comma] rfl (ih hxs))

/-! ## Integers -/

theorem toList_integerText (i : Int) : (Json.integerText i).toList =
    if i < 0 then '-' :: Nat.toDigits 10 i.natAbs else Nat.toDigits 10 i.natAbs := by
  rw [Json.integerText]
  split
  · rw [String.toList_append]
    exact congrArg ('-' :: ·) Nat.toList_repr
  · exact Nat.toList_repr

/-- An integer is written as a numeral. -/
theorem isNumeral_integerText (i : Int) : isNumeral (Json.integerText i).toList = true := by
  have hd : ∀ c ∈ Nat.toDigits 10 i.natAbs, c.isDigit = true := fun c hc =>
    Nat.isDigit_of_mem_toDigits (by omega) (by omega) hc
  rw [toList_integerText]
  cases hn : Nat.toDigits 10 i.natAbs with
  | nil => exact absurd hn Nat.toDigits_ne_nil
  | cons c cs =>
    rw [hn] at hd
    obtain ⟨hc, hcs⟩ := List.forall_mem_cons.1 hd
    split <;> simp [isNumeral, hc, List.all_eq_true.2 hcs]

/-- The numeral of an integer denotes it. -/
theorem literalValue_integerText (i : Int) : literalValue (Json.integerText i) = i := by
  rw [literalValue, toList_integerText]
  split
  next h ds heq =>
    split at heq
    next hi =>
      obtain ⟨-, rfl⟩ := List.cons.inj heq
      rw [Nat.ofDigitChars_ten_toDigits]
      omega
    next hi =>
      have hm : '-' ∈ Nat.toDigits 10 i.natAbs := by simp [heq]
      exact absurd (Nat.isDigit_of_mem_toDigits (by omega) (by omega) hm) (by decide)
  next h hne =>
    split
    next hi => exact absurd (if_pos hi) (hne _)
    next hi =>
      rw [Nat.ofDigitChars_ten_toDigits]
      omega

theorem integerLiteral?_integerText (i : Int64) :
    integerLiteral? (Json.integerText i.toInt) = some i := by
  have h1 := i.le_toInt
  have h2 := i.toInt_lt
  rw [integerLiteral?, literalValue_integerText, Json.int64?, if_pos ⟨h1, by omega⟩,
    Int64.ofInt_toInt]

end SchemaLoom.Source
