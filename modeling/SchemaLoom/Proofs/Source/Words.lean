/-
  The words of a text are identifiers, and so is each name that is read of it.

  `Yields Q p`: on a stream of which every word is an identifier, the step `p`
  leaves only such words, and what it answers with satisfies `Q`.

  * `worded_tokens`: the words of a text;
  * `isIdentifier_of_readTable`: a composite key that is read lists identifiers,
    whatever the text.
-/
import SchemaLoom.Proofs.Results
import SchemaLoom.Source.Entity

namespace SchemaLoom.Source

/-! ## The words of a text -/

/-- A token that is a word is an identifier. -/
def Token.Worded (t : Token) : Prop := ∀ name, t = .identifier name → Text.isIdentifier name = true

/-- Every word of the stream is an identifier. -/
def Stream.Worded (s : Stream) : Prop := ∀ t ∈ s.tokens, t.token.Worded

theorem worded_punctuation {c : Char} {t : Token} (h : punctuation? c = some t) : t.Worded := by
  unfold punctuation? at h
  rintro name rfl
  repeat' split at h
  all_goals cases h

theorem worded_delimited {α : Type} {part : Delimited} {line : Nat} {token : α → Option Token}
    {o : Option (Taken α)} {taken : Taken (Option Token)} (ht : ∀ a, ∀ t ∈ token a, t.Worded)
    (h : delimited part line token o = .ok taken) : ∀ t ∈ taken.value, t.Worded := by
  cases o with
  | none => cases h
  | some u =>
    cases h
    exact ht u.value

/-- A token that is taken is a word only if it is an identifier. -/
theorem worded_scan {line : Nat} {c : Char} {rest : List Char} {taken : Taken (Option Token)}
    (h : scan line c rest = .ok taken) : ∀ t ∈ taken.value, t.Worded := by
  unfold scan at h
  split at h
  · cases h
    exact nofun
  split at h
  · cases h
    exact nofun
  split at h
  · refine worded_delimited (fun _ t ht => ?_) h
    cases ht
  split at h
  next t ht =>
    cases h
    rintro t' ⟨⟩
    exact worded_punctuation ht
  split at h
  · cases h
    unfold dots
    split <;> rintro t ⟨⟩ name ⟨⟩
  split at h
  · cases h
    unfold equalsOrArrow
    split <;> rintro t ⟨⟩ name ⟨⟩
  split at h
  · refine worded_delimited (fun _ t ht => ?_) h
    cases ht
    exact nofun
  split at h
  · refine worded_delimited (fun _ t ht => ?_) h
    cases ht
    exact nofun
  split at h
  · cases h
    rintro t ⟨⟩ name ⟨⟩
  split at h
  next hstart =>
    cases h
    rintro t ⟨⟩ name ⟨⟩
    rw [Text.isIdentifier, String.toList_ofList, Text.isIdentifierChars, hstart, Bool.true_and]
    exact List.all_takeWhile
  · cases h

theorem worded_tokensFrom {line : Nat} {cs : List Char} {s : Stream}
    (h : tokensFrom line cs = .ok s) : s.Worded := by
  induction line, cs using tokensFrom.induct generalizing s with
  | case1 line =>
    rw [tokensFrom] at h
    cases h
    exact nofun
  | case2 line c rest e he =>
    rw [tokensFrom, he] at h
    cases h
  | case3 line c rest taken ht ih =>
    rw [tokensFrom, ht] at h
    obtain ⟨s', hs', rfl⟩ := map_eq_ok_iff.1 h
    have hworded := ih hs'
    cases hv : taken.value with
    | none => exact hworded
    | some t =>
      refine List.forall_mem_cons.2 ⟨?_, hworded⟩
      exact worded_scan ht t hv

/-- **The words of a text are identifiers.** -/
theorem worded_tokens {cs : List Char} {s : Stream} (h : tokens cs = .ok s) : s.Worded :=
  worded_tokensFrom h

namespace Parse

variable {α β : Type} {p : Parse α} {P : α → Prop} {Q : β → Prop}

/-- On a stream of which every word is an identifier, the step leaves only such
    words, and its answer satisfies `P`. -/
def Yields (P : α → Prop) (p : Parse α) : Prop :=
  ∀ s a s', s.Worded → p s = .ok (a, s') → s'.Worded ∧ P a

/-! ## How steps are put together -/

theorem Yields.pure {a : α} (h : P a) : Yields P (Pure.pure a) := by
  intro s b s' hs hb
  cases hb
  exact ⟨hs, h⟩

theorem Yields.bind {f : α → Parse β} (hp : Yields P p) (hf : ∀ a, P a → Yields Q (f a)) :
    Yields Q (p >>= f) := by
  intro s b s' hs hb
  obtain ⟨⟨a, s₁⟩, ha, hb⟩ := bind_eq_ok.1 hb
  obtain ⟨hs₁, hpa⟩ := hp s a s₁ hs ha
  exact hf a hpa s₁ b s' hs₁ hb

/-- A step whose answer does not matter, and what follows it. -/
theorem Yields.next {f : α → Parse β} (hp : Yields P p) (hf : ∀ a, Yields Q (f a)) :
    Yields Q (p >>= f) :=
  hp.bind fun a _ => hf a

/-- A step that looks at the whole stream. -/
theorem Yields.get {f : Stream → Parse β} (hf : ∀ s, Yields Q (f s)) :
    Yields Q (MonadState.get >>= f) :=
  fun s b s' hs hb => hf s s b s' hs hb

/-- A step of two branches. -/
theorem Yields.ite {c : Prop} [Decidable c] {p q : Parse α} (hp : Yields P p) (hq : Yields P q) :
    Yields P (if c then p else q) := by
  split
  · exact hp
  · exact hq

theorem yields_expected {wanted : Expectation} : Yields P (expected wanted) := nofun

theorem yields_unsupported {what : Unsupported} : Yields P (unsupported what) := nofun

/-! ## Single tokens -/

/-- The next token is a word only if it is an identifier. -/
theorem yields_current : Yields (fun t => ∀ u ∈ t, u.Worded) current := by
  intro s t s' hs ht
  cases ht
  refine ⟨hs, fun u hu => ?_⟩
  obtain ⟨l, hl, rfl⟩ := Option.map_eq_some_iff.1 hu
  exact hs l (List.mem_of_mem_head? hl)

theorem yields_line : Yields (fun _ => True) line := by
  intro s n s' hs hn
  cases hn
  exact ⟨hs, trivial⟩

theorem yields_advance : Yields (fun _ => True) advance := by
  intro s a s' hs ha
  cases ha
  exact ⟨fun t ht => hs t (List.mem_of_mem_tail ht), trivial⟩

theorem yields_eat (t : Token) : Yields (fun _ => True) (eat t) :=
  yields_current.next fun _ => .ite (yields_advance.next fun _ => .pure trivial) (.pure trivial)

theorem yields_expect (t : Token) : Yields (fun _ => True) (expect t) :=
  (yields_eat t).next fun _ => .ite (.pure trivial) yields_expected

/-- A name that is read is an identifier. -/
theorem yields_identifier : Yields (fun name => Text.isIdentifier name = true) identifier := by
  refine yields_current.bind fun t ht => ?_
  split
  next name => exact yields_advance.next fun _ => .pure (ht _ rfl name rfl)
  next => exact yields_expected

theorem yields_keyword (word : String) : Yields (fun _ => True) (keyword word) :=
  yields_current.next fun _ => .ite yields_advance yields_expected

theorem yields_string : Yields (fun _ => True) string := by
  refine yields_current.next fun t => ?_
  split
  · exact yields_advance.next fun _ => .pure trivial
  · exact yields_expected

theorem yields_endOfInput : Yields (fun _ => True) endOfInput :=
  yields_current.next fun _ => .ite yields_expected (.pure trivial)

/-! ## Lists -/

theorem yields_commaList {close : Token} {item : Parse α} (hitem : Yields P item)
    (room : List Located) : Yields (fun as => ∀ a ∈ as, P a) (commaList close item room) := by
  induction room with
  | nil =>
    rw [commaList.eq_def]
    refine (yields_eat close).next fun _ => .ite (.pure (by simp)) (hitem.bind fun a ha => ?_)
    refine (yields_eat .comma).next fun _ => .ite yields_expected ?_
    exact (yields_expect close).next fun _ => .pure (by simpa using ha)
  | cons r room ih =>
    rw [commaList.eq_def]
    refine (yields_eat close).next fun _ => .ite (.pure (by simp)) (hitem.bind fun a ha => ?_)
    refine (yields_eat .comma).next fun _ => .ite ?_ ?_
    · exact ih.bind fun as has => .pure (List.forall_mem_cons.2 ⟨ha, has⟩)
    · exact (yields_expect close).next fun _ => .pure (by simpa using ha)

/-- The items of a list that is read. -/
theorem yields_listUntil {close : Token} {item : Parse α} (hitem : Yields P item) :
    Yields (fun as => ∀ a ∈ as, P a) (listUntil close item) :=
  .get fun s => yields_commaList hitem s.tokens

/-! ## Columns -/

theorem yields_entry {argument : Parse Argument} (h : Yields (fun _ => True) argument) :
    Yields (fun _ => True) (entry argument) :=
  yields_identifier.next fun _ => (yields_expect .colon).next fun _ => h.next fun _ => .pure trivial

theorem yields_argumentWithin (room : List Located) :
    Yields (fun _ => True) (argumentWithin room) := by
  induction room with
  | nil => exact yields_expected
  | cons r room ih =>
    rw [argumentWithin]
    refine yields_current.next fun t => ?_
    split
    · exact yields_advance.next fun _ => .pure trivial
    · split
      · exact yields_advance.next fun _ => .pure trivial
      · exact yields_unsupported
    · exact yields_advance.next fun _ => .pure trivial
    · exact yields_advance.next fun _ => .pure trivial
    · refine yields_advance.next fun _ => yields_current.next fun t => yields_advance.next fun _ => ?_
      split
      · exact .pure trivial
      · exact yields_expected
    · exact yields_advance.next fun _ =>
        (yields_listUntil (yields_entry ih)).next fun _ => .pure trivial
    · refine yields_advance.next fun _ => (yields_expect .rightParen).next fun _ => ?_
      refine (yields_expect .arrow).next fun _ => yields_identifier.next fun _ => ?_
      exact (yields_expect .dot).next fun _ => yields_identifier.next fun _ => .pure trivial
    · exact yields_expected

theorem yields_call : Yields (fun _ => True) call := by
  refine yields_line.next fun _ => yields_identifier.next fun _ => ?_
  refine (yields_expect .leftParen).next fun _ => ?_
  have harguments : Yields (fun _ => True) argument := .get fun s => yields_argumentWithin s.tokens
  exact (yields_listUntil harguments).next fun _ => .pure trivial

theorem yields_moreCalls (room : List Located) : Yields (fun _ => True) (moreCalls room) := by
  induction room with
  | nil => exact .pure trivial
  | cons r room ih =>
    rw [moreCalls]
    refine (yields_eat .dot).next fun _ => .ite ?_ (.pure trivial)
    exact yields_call.next fun _ => ih.next fun _ => .pure trivial

theorem yields_column : Yields (fun _ => True) column := by
  have hchain : Yields (fun _ => True) chain := yields_call.next fun _ =>
    .get fun s => (yields_moreCalls s.tokens).next fun _ => .pure trivial
  refine yields_identifier.next fun _ => (yields_expect .colon).next fun _ => ?_
  refine hchain.next fun _ => ?_
  split
  · exact .pure trivial
  · intro s c s' _ hc
    cases hc

/-! ## Tables -/

theorem mem_of_mem_skipThrough {t : Token} {l : Located} {ls : List Located}
    (h : l ∈ skipThrough t ls) : l ∈ ls := by
  induction ls with
  | nil => cases h
  | cons x xs ih =>
    rw [skipThrough] at h
    split at h
    · exact List.mem_cons_of_mem x h
    · exact List.mem_cons_of_mem x (ih h)

theorem yields_skipImports (room : List Located) : Yields (fun _ => True) (skipImports room) := by
  induction room with
  | nil => exact .pure trivial
  | cons r room ih =>
    have hskip : Yields (fun _ => True) (modify fun s =>
        { s with tokens := skipThrough .semicolon s.tokens } : Parse Unit) := by
      intro s a s' hs ha
      cases ha
      exact ⟨fun t ht => hs t (mem_of_mem_skipThrough ht), trivial⟩
    rw [skipImports]
    exact yields_current.next fun _ => .ite (hskip.next fun _ => ih) (.pure trivial)

theorem yields_header : Yields (fun _ => True) header := by
  refine .get fun s => (yields_skipImports s.tokens).next fun _ => ?_
  refine (yields_keyword "export").next fun _ => (yields_keyword "const").next fun _ => ?_
  exact yields_identifier.next fun _ => (yields_expect .equals).next fun _ => .pure trivial

theorem yields_finish : Yields (fun _ => True) finish :=
  (yields_eat .semicolon).next fun _ => yields_endOfInput

theorem yields_body : Yields (fun _ => True) body := by
  have hmember : Yields (fun _ => True) member := by
    refine (yields_eat .spread).next fun _ => .ite ?_ ?_
    · exact yields_identifier.next fun _ => .pure trivial
    · exact yields_column.next fun _ => .pure trivial
  refine (yields_expect .leftBrace).next fun _ => ?_
  exact fun s a s' hs ha => ⟨(yields_listUntil hmember s a s' hs ha).1, trivial⟩

theorem yields_keyColumn (owner : String) :
    Yields (fun c => Text.isIdentifier c = true) (keyColumn owner) := by
  refine yields_identifier.next fun _ => .ite ?_ yields_unsupported
  exact (yields_expect .dot).next fun _ => yields_identifier

/-- The columns of a composite key that is read are identifiers. -/
theorem yields_compositeKey :
    Yields (fun key => ∀ c ∈ key, Text.isIdentifier c = true) compositeKey := by
  refine (yields_expect _).next fun _ => yields_identifier.next fun owner => ?_
  refine (yields_expect _).next fun _ => (yields_expect _).next fun _ => ?_
  refine (yields_expect _).next fun _ => (yields_expect _).next fun _ => ?_
  refine (yields_keyword _).next fun _ => (yields_expect _).next fun _ => ?_
  refine (yields_keyword _).next fun _ => (yields_expect _).next fun _ => ?_
  refine (yields_expect _).next fun _ => (yields_keyword _).next fun _ => ?_
  refine (yields_expect _).next fun _ => (yields_expect _).next fun _ => ?_
  refine (yields_listUntil (yields_keyColumn owner)).bind fun key hkey => ?_
  refine (yields_expect _).next fun _ => (yields_expect _).next fun _ => ?_
  exact (yields_expect _).next fun _ => (yields_expect _).next fun _ => .pure hkey

theorem yields_tableModule (name : String) : Yields
    (fun t => ∀ c ∈ t.compositePrimaryKey, Text.isIdentifier c = true) (tableModule name) := by
  refine yields_header.next fun _ => (yields_keyword _).next fun _ => ?_
  refine (yields_expect _).next fun _ => yields_string.next fun _ => ?_
  refine (yields_expect _).next fun _ => Yields.next yields_body fun _ => ?_
  refine (yields_eat _).next fun _ => .ite (yields_compositeKey.bind fun key hkey => ?_) ?_
  · exact (yields_expect _).next fun _ => yields_finish.next fun _ => .pure hkey
  · refine (Yields.pure (P := fun key => key = []) rfl).bind ?_
    rintro _ rfl
    exact (yields_expect _).next fun _ => yields_finish.next fun _ => .pure (by simp)

end Parse

/-- **A composite key that is read lists identifiers**, whatever the text. -/
theorem isIdentifier_of_readTable {name text : String} {t : TableDef}
    (h : readTable name text = .ok t) {c : String} (hc : c ∈ t.compositePrimaryKey) :
    Text.isIdentifier c = true := by
  obtain ⟨s, hs, h⟩ := bind_eq_ok.1 h
  obtain ⟨⟨t', s'⟩, ht, h⟩ := bind_eq_ok.1 h
  cases h
  exact (Parse.yields_tableModule name s _ s' (worded_tokens hs) ht).2 c hc

end SchemaLoom.Source
