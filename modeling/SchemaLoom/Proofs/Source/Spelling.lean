/-
  How a text spells its tokens.

  `Spells cs ts` builds a text lexeme by lexeme, with blank characters wherever
  one likes.  A lexeme that the next character could prolong says what may not
  follow it: a name is not followed by a letter, a dot by no dot.

  * `Spells.hasTokens`: a text that spells tokens has exactly these, on
    whatever line it starts.
-/
import Mathlib.Data.Bool.AllAny
import SchemaLoom.Proofs.Source.Delimited

namespace SchemaLoom.Source

/-! ## Characters of lexemes -/

/-- The text does not go on with a character that satisfies `p`. -/
def Stops (p : Char → Bool) (cs : List Char) : Prop := ∀ c ∈ cs.head?, p c = false

theorem takeWhile_append_stops {p : Char → Bool} {cs rest : List Char} (h : cs.all p = true)
    (hr : Stops p rest) : (cs ++ rest).takeWhile p = cs := by
  rw [List.takeWhile_append_of_pos (by simpa using h)]
  cases rest with
  | nil => simp
  | cons c rest => simp [hr c rfl]

theorem dropWhile_append_stops {p : Char → Bool} {cs rest : List Char} (h : cs.all p = true)
    (hr : Stops p rest) : (cs ++ rest).dropWhile p = rest := by
  rw [List.dropWhile_append_of_pos (by simpa using h)]
  cases rest with
  | nil => simp
  | cons c rest => simp [hr c rfl]

/-- The characters of an integer literal. -/
def isNumeral : List Char → Bool
  | [] => false
  | c :: rest => (c.isDigit || c == '-' && rest.head?.any Char.isDigit) && rest.all Char.isDigit

/-- A code point of a table is in one of its runs. -/
theorem exists_run_of_inRuns {runs : List Text.CodeRun} {n : Nat}
    (h : Text.inRuns runs n = true) : ∃ r ∈ runs, r.first ≤ n ∧ n ≤ r.last := by
  induction runs with
  | nil => simp [Text.inRuns] at h
  | cons r rs ih =>
    rw [Text.inRuns] at h
    split at h
    · simp at h
    rcases Bool.or_eq_true _ _ ▸ h with h | h
    · simp only [Text.CodeRun.contains, Bool.and_eq_true, decide_eq_true_eq] at h
      exact ⟨r, by simp, h.1.1, h.1.2⟩
    · obtain ⟨r', hr', hn⟩ := ih h
      exact ⟨r', by simp [hr'], hn⟩

/-- The characters of a table of runs that all lack a property lack it. -/
theorem inRuns_eq_false_of_disjoint {runs others : List Text.CodeRun}
    (h : ∀ r ∈ runs, ∀ k ≤ r.last - r.first, Text.inRuns others (r.first + k) = false) {n : Nat}
    (hn : Text.inRuns runs n = true) : Text.inRuns others n = false := by
  obtain ⟨r, hr, h1, h2⟩ := exists_run_of_inRuns hn
  have := h r hr (n - r.first) (by omega)
  rwa [show r.first + (n - r.first) = n by omega] at this

/-- No blank character starts an identifier. -/
theorem isIdentifierStart_of_isBlank {c : Char} (h : Text.isBlank c = true) :
    Text.isIdentifierStart c = false := by
  have ha : Text.isAlphabetic c = false := inRuns_eq_false_of_disjoint (by decide +kernel) h
  have hne : ∀ d, Text.isBlank d = false → c ≠ d := by
    rintro d hd rfl
    simp [hd] at h
  simp [Text.isIdentifierStart, ha, hne '_' (by decide), hne '$' (by decide)]

/-- The digits as a table. -/
theorem inRuns_of_isDigit {c : Char} (h : c.isDigit = true) :
    Text.inRuns [⟨48, 57, 1⟩] c.toNat = true := by
  simp only [Char.isDigit, Bool.and_eq_true, decide_eq_true_eq] at h
  have h1 : 48 ≤ c.toNat := h.1
  have h2 : c.toNat ≤ 57 := h.2
  simp [Text.inRuns, Text.CodeRun.contains, Nat.mod_one, h1, h2]

/-- No digit starts an identifier. -/
theorem isIdentifierStart_of_isDigit {c : Char} (h : c.isDigit = true) :
    Text.isIdentifierStart c = false := by
  have ha : Text.isAlphabetic c = false :=
    inRuns_eq_false_of_disjoint (by decide +kernel) (inRuns_of_isDigit h)
  have hne : ∀ d : Char, d.isDigit = false → c ≠ d := by
    rintro d hd rfl
    simp [hd] at h
  simp [Text.isIdentifierStart, ha, hne '_' (by decide), hne '$' (by decide)]

/-! ## Single steps -/

/-- The characters that are tokens. -/
def marks : List Char := ['(', ')', '\x7b', '\x7d', '[', ']', ',', ':', ';']

theorem mem_marks {c : Char} {t : Token} (h : punctuation? c = some t) : c ∈ marks := by
  refine Decidable.byContradiction fun hc => ?_
  simp only [marks, List.mem_cons, List.not_mem_nil, or_false, not_or] at hc
  simp [punctuation?, hc] at h

theorem punctuation?_eq_none {c : Char} (h : c ∉ marks) : punctuation? c = none := by
  cases hp : punctuation? c with
  | none => rfl
  | some t => exact absurd (mem_marks hp) h

section
variable (line : Nat) {c : Char} {rest : List Char}

theorem scan_blank (h : Text.isBlank c = true) :
    scan line c rest = .ok ⟨none, rest, lineAfter c line⟩ := by
  rw [scan, if_pos h]

theorem scan_mark {t : Token} (h : punctuation? c = some t) :
    scan line c rest = .ok ⟨some t, rest, line⟩ := by
  have hall : ∀ d ∈ marks, Text.isBlank d = false ∧ d ≠ '/' :=
    List.all_iff_forall_prop.1 (by decide)
  obtain ⟨hb, hs⟩ := hall c (mem_marks h)
  simp [scan, hb, hs, h]

/-- A character that is neither blank nor a mark, and opens no comment and no
    literal, starts a number or a name. -/
theorem scan_run (hb : Text.isBlank c = false)
    (hc : ∀ d ∈ marks ++ ['/', '.', '=', '\'', '"', '\x60'], c ≠ d) :
    scan line c rest =
      if c.isDigit ∨ (c = '-' ∧ rest.head?.any Char.isDigit) then
        .ok (run .number Char.isDigit line c rest)
      else if Text.isIdentifierStart c then
        .ok (run .identifier Text.isIdentifierPart line c rest)
      else .error (.unexpectedCharacter c line) := by
  have hp : punctuation? c = none := punctuation?_eq_none fun h => hc c (by simp [h]) rfl
  simp only [List.forall_mem_append, List.forall_mem_cons] at hc
  obtain ⟨-, h1, h2, h3, h4, h5, h6, -⟩ := hc
  simp [scan, hb, hp, h1, h2, h3, h4, h5, h6]

theorem scan_word (h : Text.isIdentifierStart c = true) :
    scan line c rest = .ok (run .identifier Text.isIdentifierPart line c rest) := by
  have hb : Text.isBlank c = false := by
    rw [Bool.eq_false_iff]
    intro hb
    simp [isIdentifierStart_of_isBlank hb] at h
  have hd : c.isDigit = false := by
    rw [Bool.eq_false_iff]
    intro hd
    simp [isIdentifierStart_of_isDigit hd] at h
  have hne : ∀ d, Text.isIdentifierStart d = false → c ≠ d := by
    rintro d hd rfl
    simp [hd] at h
  have hall : ∀ d ∈ marks ++ ['/', '.', '=', '\'', '"', '\x60'],
      Text.isIdentifierStart d = false := List.all_iff_forall_prop.1 (by decide)
  rw [scan_run line hb fun d hm => hne d (hall d hm)]
  simp [hd, h, hne '-' (by decide)]

theorem scan_number (h : c.isDigit = true ∨ c = '-' ∧ rest.head?.any Char.isDigit = true) :
    scan line c rest = .ok (run .number Char.isDigit line c rest) := by
  have hb : Text.isBlank c = false := by
    rcases h with h | ⟨rfl, -⟩
    · exact inRuns_eq_false_of_disjoint (by decide +kernel) (inRuns_of_isDigit h)
    · decide
  have hne : ∀ d ∈ marks ++ ['/', '.', '=', '\'', '"', '\x60'], c ≠ d := by
    rintro d hm rfl
    have hall : ∀ d ∈ marks ++ ['/', '.', '=', '\'', '"', '\x60'], d.isDigit = false ∧ d ≠ '-' :=
      List.all_iff_forall_prop.1 (by decide)
    obtain ⟨h1, h2⟩ := hall c hm
    simp [h1, h2] at h
  rw [scan_run line hb hne, if_pos h]

/-- A name is taken up to its end. -/
theorem scan_name {cs : List Char} (h : Text.isIdentifierChars (c :: cs) = true)
    (hr : Stops Text.isIdentifierPart rest) :
    scan line c (cs ++ rest) = .ok ⟨some (.identifier (String.ofList (c :: cs))), rest, line⟩ := by
  simp only [Text.isIdentifierChars, Bool.and_eq_true] at h
  rw [scan_word line h.1, run, takeWhile_append_stops h.2 hr, dropWhile_append_stops h.2 hr]

/-- An integer is taken up to its end. -/
theorem scan_numeral {cs : List Char} (h : isNumeral (c :: cs) = true)
    (hr : Stops Char.isDigit rest) :
    scan line c (cs ++ rest) = .ok ⟨some (.number (String.ofList (c :: cs))), rest, line⟩ := by
  simp only [isNumeral, Bool.and_eq_true, Bool.or_eq_true, beq_iff_eq] at h
  have hstart : c.isDigit = true ∨ c = '-' ∧ (cs ++ rest).head?.any Char.isDigit = true := by
    refine h.1.imp_right (And.imp_right fun hd => ?_)
    cases cs with
    | nil => cases hd
    | cons d cs => exact hd
  rw [scan_number line hstart, run, takeWhile_append_stops h.2 hr, dropWhile_append_stops h.2 hr]

theorem scan_dot (h : ¬ ['.', '.'] <+: rest) :
    scan line '.' rest = .ok ⟨some .dot, rest, line⟩ := by
  have hd : dots line rest = ⟨some .dot, rest, line⟩ := by
    unfold dots
    split
    · exact absurd ⟨_, rfl⟩ h
    · rfl
  simp [scan, punctuation?, hd, show Text.isBlank '.' = false by decide]

theorem scan_equals (h : Stops (· == '>') rest) :
    scan line '=' rest = .ok ⟨some .equals, rest, line⟩ := by
  have hd : equalsOrArrow line rest = ⟨some .equals, rest, line⟩ := by
    unfold equalsOrArrow
    split
    · exact absurd (h _ rfl) (by decide)
    · rfl
  simp [scan, punctuation?, hd, show Text.isBlank '=' = false by decide]

/-- A comment goes on to the end of its line. -/
theorem scan_lineComment {cs : List Char} (h : '\n' ∉ cs) (hr : Stops (· != '\n') rest) :
    scan line '/' ('/' :: cs ++ rest) = .ok ⟨none, rest, line⟩ := by
  have hall : cs.all (· != '\n') = true := by
    simp only [List.all_eq_true, bne_iff_ne]
    rintro c hc rfl
    exact h hc
  simp [scan, dropWhile_append_stops hall hr, show Text.isBlank '/' = false by decide]

end

/-! ## Delimited parts -/

/-- The characters between the quotes of a written literal denote its text, on
    one line. -/
theorem denotes_quoteChar (cs : List Char) :
    Denotes '\'' (cs.flatMap Text.quoteChar) cs ∧ '\n' ∉ cs.flatMap Text.quoteChar := by
  induction cs with
  | nil => exact ⟨.nil, List.not_mem_nil⟩
  | cons c cs ih =>
    obtain ⟨hd, hn⟩ := ih
    by_cases h1 : c = '\\'
    · subst h1
      exact ⟨hd.escape, by simp [Text.quoteChar] at hn ⊢; exact hn⟩
    by_cases h2 : c = '\''
    · subst h2
      exact ⟨hd.escape, by simp [Text.quoteChar] at hn ⊢; exact hn⟩
    by_cases h3 : c = '\n'
    · subst h3
      exact ⟨hd.escape, by simp [Text.quoteChar] at hn ⊢; exact hn⟩
    · rw [List.flatMap_cons, Text.quoteChar, if_neg h1, if_neg h2, if_neg h3]
      exact ⟨.plain h2 h1 h3 hd, by simpa [Ne.symm h3] using hn⟩

/-- A written literal is one token, on one line. -/
theorem scan_quote (text : String) (rest : List Char) (line : Nat) :
    scan line '\'' (text.toList.flatMap Text.quoteChar ++ '\'' :: rest) =
      .ok ⟨some (.string text), rest, line⟩ := by
  obtain ⟨hd, hn⟩ := denotes_quoteChar text.toList
  have hb := stringBody?_append rest (by decide) hd line
  simp [scan, punctuation?, delimited, hb, lineEnds_eq_zero hn,
    show Text.isBlank '\'' = false by decide]

/-- A template is taken up to its closing backtick. -/
theorem scan_templateBody {cs : List Char} (h : '\x60' ∉ cs) (rest : List Char) (line : Nat) :
    scan line '\x60' (cs ++ '\x60' :: rest) =
      .ok ⟨some (.template (String.ofList cs)), rest, line + lineEnds cs⟩ := by
  have hb := templateBody?_append rest h line
  simp [scan, punctuation?, delimited, hb, show Text.isBlank '\x60' = false by decide]

/-- A text without the characters that are escaped stands in a literal as it is. -/
theorem flatMap_quoteChar {cs : List Char} (h : ∀ c ∈ cs, c ∉ ['\\', '\'', '\n']) :
    cs.flatMap Text.quoteChar = cs := by
  induction cs with
  | nil => rfl
  | cons c cs ih =>
    obtain ⟨hc, hcs⟩ := List.forall_mem_cons.1 h
    simp only [List.mem_cons, List.not_mem_nil, or_false, not_or] at hc
    simp [Text.quoteChar, hc, ih hcs]

/-! ## Spellings -/

/-- The characters spell the tokens. -/
inductive Spells : List Char → List Token → Prop
  | done : Spells [] []
  | blank {c cs ts} : Text.isBlank c = true → Spells cs ts → Spells (c :: cs) ts
  | mark {c t cs ts} : punctuation? c = some t → Spells cs ts → Spells (c :: cs) (t :: ts)
  | dot {cs ts} : Stops (· == '.') cs → Spells cs ts → Spells ('.' :: cs) (.dot :: ts)
  | spread {cs ts} : Spells cs ts → Spells ('.' :: '.' :: '.' :: cs) (.spread :: ts)
  | equals {cs ts} : Stops (· == '>') cs → Spells cs ts → Spells ('=' :: cs) (.equals :: ts)
  | arrow {cs ts} : Spells cs ts → Spells ('=' :: '>' :: cs) (.arrow :: ts)
  | word {name cs ts} : Text.isIdentifier name = true → Stops Text.isIdentifierPart cs →
      Spells cs ts → Spells (name.toList ++ cs) (.identifier name :: ts)
  | number {digits cs ts} : isNumeral digits.toList = true → Stops Char.isDigit cs →
      Spells cs ts → Spells (digits.toList ++ cs) (.number digits :: ts)
  | literal {text cs ts} : Spells cs ts →
      Spells ((Text.quote text).toList ++ cs) (.string text :: ts)
  | template {body cs ts} : '\x60' ∉ body.toList → Spells cs ts →
      Spells ('\x60' :: (body.toList ++ '\x60' :: cs)) (.template body :: ts)

/-- A step and the tokens behind it. -/
theorem tokensFrom_cons {line : Nat} {c : Char} {rest : List Char} {t : Taken (Option Token)}
    (h : scan line c rest = .ok t) :
    tokensFrom line (c :: rest) = (tokensFrom t.line t.rest).map (Stream.cons line t.value) := by
  rw [tokensFrom]
  split <;> simp_all

/-- The tokens of a stream, without their lines. -/
def Stream.kinds (s : Stream) : List Token := s.tokens.map Located.token

/-- The text has these tokens, whatever line it starts on. -/
def HasTokens (cs : List Char) (ts : List Token) : Prop :=
  ∀ line, ∃ s, tokensFrom line cs = .ok s ∧ s.kinds = ts

/-- The tokens of a text are determined. -/
theorem HasTokens.unique {cs : List Char} {ts us : List Token} (ht : HasTokens cs ts)
    (hu : HasTokens cs us) : ts = us := by
  obtain ⟨s, hs, rfl⟩ := ht 1
  obtain ⟨s', hs', rfl⟩ := hu 1
  rw [Except.ok.inj (hs.symm.trans hs')]

theorem HasTokens.skip {c : Char} {cs rest : List Char} {ts : List Token}
    (h : ∀ line, ∃ line', scan line c rest = .ok ⟨none, cs, line'⟩) (hcs : HasTokens cs ts) :
    HasTokens (c :: rest) ts := by
  intro line
  obtain ⟨line', hl⟩ := h line
  obtain ⟨s, hs, hk⟩ := hcs line'
  exact ⟨s, by rw [tokensFrom_cons hl, hs]; rfl, hk⟩

theorem HasTokens.cons {c : Char} {t : Token} {cs rest : List Char} {ts : List Token}
    (h : ∀ line, ∃ line', scan line c rest = .ok ⟨some t, cs, line'⟩) (hcs : HasTokens cs ts) :
    HasTokens (c :: rest) (t :: ts) := by
  intro line
  obtain ⟨line', hl⟩ := h line
  obtain ⟨s, hs, hk⟩ := hcs line'
  exact ⟨Stream.cons line (some t) s, by rw [tokensFrom_cons hl, hs]; rfl,
    by simpa [Stream.kinds, Stream.cons] using hk⟩

/-- **A text that spells tokens has them.** -/
theorem Spells.hasTokens {cs : List Char} {ts : List Token} (h : Spells cs ts) :
    HasTokens cs ts := by
  induction h with
  | done => exact fun line => ⟨⟨[], line⟩, by rw [tokensFrom], rfl⟩
  | blank hb _ ih => exact .skip (fun line => ⟨_, scan_blank line hb⟩) ih
  | mark hm _ ih => exact .cons (fun line => ⟨_, scan_mark line hm⟩) ih
  | @dot cs ts hs _ ih =>
    refine .cons (fun line => ⟨line, scan_dot line ?_⟩) ih
    rintro ⟨rest, rfl⟩
    exact absurd (hs '.' rfl) (by decide)
  | spread _ ih => exact .cons (fun line => ⟨line, rfl⟩) ih
  | equals hs _ ih => exact .cons (fun line => ⟨line, scan_equals line hs⟩) ih
  | arrow _ ih => exact .cons (fun line => ⟨line, rfl⟩) ih
  | @word name cs ts hn hs _ ih =>
    cases hcs : name.toList with
    | nil => simp [Text.isIdentifier, hcs, Text.isIdentifierChars] at hn
    | cons c rest =>
      rw [Text.isIdentifier, hcs] at hn
      refine .cons (fun line => ⟨line, ?_⟩) ih
      change scan line c (rest ++ cs) = _
      rw [scan_name line hn hs, ← hcs, String.ofList_toList]
  | @number digits cs ts hn hs _ ih =>
    cases hcs : digits.toList with
    | nil => simp [hcs, isNumeral] at hn
    | cons c rest =>
      rw [hcs] at hn
      refine .cons (fun line => ⟨line, ?_⟩) ih
      change scan line c (rest ++ cs) = _
      rw [scan_numeral line hn hs, ← hcs, String.ofList_toList]
  | @literal text cs ts _ ih =>
    rw [Text.quote, String.toList_ofList, Text.quoteChars, List.cons_append, List.append_assoc]
    exact .cons (fun line => ⟨line, scan_quote text cs line⟩) ih
  | @template body cs ts hb _ ih =>
    refine .cons (fun line => ⟨line + lineEnds body.toList, ?_⟩) ih
    rw [scan_templateBody hb, String.ofList_toList]

end SchemaLoom.Source
