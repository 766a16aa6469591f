/-
  The lexemes of a text and the lines they are on.

  `Lexeme rest cs token`: the characters `cs`, with `rest` behind them, are one
  blank, one comment or one token, the longest that starts there.  A text is cut
  into lexemes up to its end, or up to a place where none starts (`Stuck`).

  * `tokensFrom_lexeme`, `tokensFrom_unclosed`, `tokensFrom_unexpected`: what one step
    takes;
  * `exists_cut`: every text is cut;
  * `tokens_lines`: the line of a token, of the end and of a fault is one more
    than the number of line ends before it;
  * `tokens_quote_append`: a written literal is one token, whatever its text and
    whatever follows.
-/
import SchemaLoom.Proofs.Results
import SchemaLoom.Proofs.Source.Spelling

namespace SchemaLoom.Source

/-! ## Lexemes -/

/-- The marks that open a delimited part. -/
def Delimited.marks : Delimited → List (List Char)
  | blockComment => [['/', '*']]
  | string => [['\''], ['"']]
  | template => [['\x60']]

/-- Behind the mark that opens a delimited part, the characters go on to its end,
    and not beyond. -/
inductive Closes : Delimited → List Char → List Char → Option Token → Prop
  | blockComment {cs} : ¬ ['*', '/'] <:+: cs ++ ['*'] →
      Closes .blockComment ['/', '*'] (cs ++ ['*', '/']) none
  | string {quote cs text} : [quote] ∈ Delimited.string.marks → Denotes quote cs text →
      Closes .string [quote] (cs ++ [quote]) (some (.string (String.ofList text)))
  | template {cs} : '\x60' ∉ cs →
      Closes .template ['\x60'] (cs ++ ['\x60']) (some (.template (String.ofList cs)))

/-- The characters in front of `rest` are one blank, one comment or one token. -/
inductive Lexeme (rest : List Char) : List Char → Option Token → Prop
  | blank {c} : Text.isBlank c = true → Lexeme rest [c] none
  | lineComment {cs} : '\n' ∉ cs → Stops (· != '\n') rest → Lexeme rest ('/' :: '/' :: cs) none
  | mark {c t} : punctuation? c = some t → Lexeme rest [c] (some t)
  | dot : ¬ ['.', '.'] <+: rest → Lexeme rest ['.'] (some .dot)
  | spread : Lexeme rest ['.', '.', '.'] (some .spread)
  | equals : Stops (· == '>') rest → Lexeme rest ['='] (some .equals)
  | arrow : Lexeme rest ['=', '>'] (some .arrow)
  | delimited {part mark cs token} : Closes part mark cs token → Lexeme rest (mark ++ cs) token
  | number {digits} : isNumeral digits = true → Stops Char.isDigit rest →
      Lexeme rest digits (some (.number (String.ofList digits)))
  | word {name} : Text.isIdentifierChars name = true → Stops Text.isIdentifierPart rest →
      Lexeme rest name (some (.identifier (String.ofList name)))

/-- A delimited part is opened and has no end. -/
def Unclosed (part : Delimited) (cs : List Char) : Prop :=
  ∃ mark ∈ part.marks, ∃ rest, cs = mark ++ rest ∧
    ∀ closed token, Closes part mark closed token → ¬ closed <+: rest

/-- The text starts with no lexeme, and opens no delimited part. -/
def Unexpected (cs : List Char) : Prop :=
  (∀ lexeme rest token, cs = lexeme ++ rest → ¬ Lexeme rest lexeme token) ∧
    ∀ part, ¬ Unclosed part cs

/-! ## Single steps -/

theorem lineEnds_eq_zero_of_all {p : Char → Bool} {cs : List Char} (h : cs.all p = true)
    (hp : p '\n' = false) : lineEnds cs = 0 := by
  refine lineEnds_eq_zero fun hm => ?_
  simp [List.all_eq_true.1 h _ hm] at hp

theorem lineEnds_eq_zero_of_numeral {cs : List Char} (h : isNumeral cs = true) :
    lineEnds cs = 0 := by
  cases cs with
  | nil => rfl
  | cons c ds =>
    simp only [isNumeral, Bool.and_eq_true, Bool.or_eq_true, beq_iff_eq] at h
    have hc : c ≠ '\n' := by
      rintro rfl
      rcases h.1 with hd | ⟨hd, -⟩ <;> simp at hd
    rw [lineEnds_cons_of_ne hc, lineEnds_eq_zero_of_all h.2 (by decide)]

theorem lineEnds_eq_zero_of_name {cs : List Char} (h : Text.isIdentifierChars cs = true) :
    lineEnds cs = 0 := by
  cases cs with
  | nil => rfl
  | cons c ds =>
    simp only [Text.isIdentifierChars, Bool.and_eq_true] at h
    have hc : c ≠ '\n' := by
      rintro rfl
      simp [show Text.isIdentifierStart '\n' = false by decide] at h
    rw [lineEnds_cons_of_ne hc, lineEnds_eq_zero_of_all h.2 (by decide)]

section
variable (line : Nat) {c : Char} {rest cs : List Char} {token : Option Token}

theorem scan_blockComment : scan line '/' ('*' :: rest) =
    delimited .blockComment line (fun _ => none) (blockComment? line rest) := rfl

theorem scan_string {quote : Char} (h : [quote] ∈ Delimited.string.marks) :
    scan line quote rest = delimited .string line (fun cs => some (.string (String.ofList cs)))
      (stringBody? quote line rest) := by
  simp only [Delimited.marks, List.mem_cons, List.cons.injEq, and_true, List.not_mem_nil,
    or_false] at h
  rcases h with rfl | rfl <;> rfl

theorem scan_template : scan line '\x60' rest =
    delimited .template line (fun cs => some (.template (String.ofList cs)))
      (templateBody? line rest) := rfl

theorem ne_of_mem_marks {quote : Char} (h : [quote] ∈ Delimited.string.marks) :
    quote ≠ '\\' ∧ quote ≠ '\n' := by
  simp only [Delimited.marks, List.mem_cons, List.cons.injEq, and_true, List.not_mem_nil,
    or_false] at h
  rcases h with rfl | rfl <;> decide

/-- A part that has an end is taken up to it. -/
theorem tokensFrom_closes {part : Delimited} {mark : List Char} (h : Closes part mark cs token) :
    tokensFrom line (mark ++ cs ++ rest) =
      (tokensFrom (line + lineEnds (mark ++ cs)) rest).map (Stream.cons line token) := by
  cases h with
  | @blockComment cs h =>
    have hb := blockComment?_append rest h line
    have hs : scan line '/' ('*' :: (cs ++ '*' :: '/' :: rest)) =
        .ok ⟨none, rest, line + lineEnds cs⟩ := by
      rw [scan_blockComment, hb]
      rfl
    have hl : lineEnds (['/', '*'] ++ (cs ++ ['*', '/'])) = lineEnds cs := by
      simp [lineEnds]
    rw [hl]
    simpa using tokensFrom_cons hs
  | @string quote cs text hq h =>
    obtain ⟨hq₁, hq₂⟩ := ne_of_mem_marks hq
    have hb := stringBody?_append rest hq₁ h line
    have hs : scan line quote (cs ++ quote :: rest) =
        .ok ⟨some (.string (String.ofList text)), rest, line + lineEnds cs⟩ := by
      rw [scan_string line hq, hb]
      rfl
    have hl : lineEnds ([quote] ++ (cs ++ [quote])) = lineEnds cs := by
      simp [lineEnds, hq₂]
    rw [hl]
    simpa using tokensFrom_cons hs
  | @template cs h =>
    have hs := scan_templateBody h rest line
    have hl : lineEnds (['\x60'] ++ (cs ++ ['\x60'])) = lineEnds cs := by
      simp [lineEnds]
    rw [hl]
    simpa using tokensFrom_cons hs

/-- A lexeme is taken as what it is, and what is behind it starts on its line. -/
theorem tokensFrom_lexeme (h : Lexeme rest cs token) :
    tokensFrom line (cs ++ rest) =
      (tokensFrom (line + lineEnds cs) rest).map (Stream.cons line token) := by
  cases h with
  | @blank c h =>
    rw [lineEnds_cons, ← lineAfter_add]
    exact tokensFrom_cons (scan_blank line h)
  | lineComment hcs hr =>
    simpa [lineEnds_cons_of_ne, lineEnds_eq_zero hcs] using
      tokensFrom_cons (scan_lineComment line hcs hr)
  | @mark c t h =>
    have hc : c ≠ '\n' := by
      rintro rfl
      cases h
    rw [lineEnds_cons_of_ne hc]
    exact tokensFrom_cons (scan_mark line h)
  | dot hr => exact tokensFrom_cons (scan_dot line hr)
  | spread =>
    have hs : scan line '.' ('.' :: '.' :: rest) = .ok ⟨some .spread, rest, line⟩ := rfl
    exact tokensFrom_cons hs
  | equals hr => exact tokensFrom_cons (scan_equals line hr)
  | arrow =>
    have hs : scan line '=' ('>' :: rest) = .ok ⟨some .arrow, rest, line⟩ := rfl
    exact tokensFrom_cons hs
  | delimited h => exact tokensFrom_closes line h
  | number hn hr =>
    rw [lineEnds_eq_zero_of_numeral hn]
    cases cs with
    | nil => cases hn
    | cons c ds => exact tokensFrom_cons (scan_numeral line hn hr)
  | word hn hr =>
    rw [lineEnds_eq_zero_of_name hn]
    cases cs with
    | nil => cases hn
    | cons c cs => exact tokensFrom_cons (scan_name line hn hr)

theorem tokensFrom_error {e : Error} (h : scan line c rest = .error e) :
    tokensFrom line (c :: rest) = .error e := by
  rw [tokensFrom]
  split <;> simp_all

/-- The fault of a part without an end is on the line of its mark. -/
theorem tokensFrom_unclosed {part : Delimited} (h : Unclosed part cs) :
    tokensFrom line cs = .error (.unterminated part line) := by
  obtain ⟨mark, hm, rest, rfl, hc⟩ := h
  cases part with
  | blockComment =>
    obtain rfl := List.mem_singleton.1 hm
    refine tokensFrom_error line ?_
    change scan line '/' ('*' :: rest) = _
    rw [scan_blockComment]
    cases hb : blockComment? line rest with
    | none => rfl
    | some t =>
      obtain ⟨body, hi, rfl, -⟩ := blockComment?_eq_some hb
      exact absurd ⟨t.rest, by simp⟩ (hc _ _ (.blockComment hi))
  | string =>
    obtain ⟨quote, rfl⟩ : ∃ quote, mark = [quote] := by
      simp only [Delimited.marks, List.mem_cons, List.not_mem_nil, or_false] at hm
      exact hm.elim (fun h => ⟨_, h⟩) fun h => ⟨_, h⟩
    refine tokensFrom_error line ?_
    change scan line quote rest = _
    rw [scan_string line hm]
    cases hb : stringBody? quote line rest with
    | none => rfl
    | some t =>
      obtain ⟨body, hd, rfl, -⟩ := stringBody?_eq_some hb
      exact absurd ⟨t.rest, by simp⟩ (hc _ _ (.string hm hd))
  | template =>
    obtain rfl := List.mem_singleton.1 hm
    refine tokensFrom_error line ?_
    change scan line '\x60' rest = _
    rw [scan_template]
    cases hb : templateBody? line rest with
    | none => rfl
    | some t =>
      obtain ⟨hi, hr, -⟩ := templateBody?_eq_some hb
      exact absurd ⟨t.rest, by simp [hr]⟩ (hc _ _ (.template hi))

theorem stops_dropWhile (p : Char → Bool) (cs : List Char) : Stops p (cs.dropWhile p) := by
  intro c hc
  have h := List.head?_dropWhile_not p cs
  rwa [hc] at h

namespace Unexpected

theorem ne (h : Unexpected cs) {lexeme after : List Char} (hl : Lexeme after lexeme token) :
    cs ≠ lexeme ++ after :=
  fun he => h.1 lexeme after token he hl

/-- No delimited part starts, be it with an end or without. -/
theorem not_mark (h : Unexpected cs) (part : Delimited) {mark : List Char}
    (hm : mark ∈ part.marks) : ¬ mark <+: cs := by
  rintro ⟨rest, rfl⟩
  refine h.2 part ⟨mark, hm, rest, rfl, ?_⟩
  rintro closed token hc ⟨after, rfl⟩
  exact h.ne (.delimited hc) (List.append_assoc ..).symm

theorem not_lineComment (h : Unexpected (c :: rest)) :
    ¬ (c = '/' ∧ rest.head? = some '/') := by
  rintro ⟨rfl, hr⟩
  obtain ⟨rest, rfl⟩ := List.head?_eq_some_iff.1 hr
  refine h.ne (.lineComment (fun hm => ?_) (stops_dropWhile (· != '\n') rest))
    (by simp : _ = ('/' :: '/' :: rest.takeWhile (· != '\n')) ++ _)
  simpa using List.all_eq_true.1 List.all_takeWhile _ hm

theorem not_blockComment (h : Unexpected (c :: rest)) :
    ¬ (c = '/' ∧ rest.head? = some '*') := by
  rintro ⟨rfl, hr⟩
  obtain ⟨rest, rfl⟩ := List.head?_eq_some_iff.1 hr
  exact h.not_mark .blockComment List.mem_cons_self ⟨rest, rfl⟩

theorem not_quote (h : Unexpected (c :: rest)) : ¬ (c = '\'' ∨ c = '"') := by
  rintro (rfl | rfl)
  · exact h.not_mark .string List.mem_cons_self ⟨rest, rfl⟩
  · exact h.not_mark .string (List.mem_cons_of_mem _ List.mem_cons_self) ⟨rest, rfl⟩

theorem not_backtick (h : Unexpected (c :: rest)) : c ≠ '\x60' := by
  rintro rfl
  exact h.not_mark .template List.mem_cons_self ⟨rest, rfl⟩

theorem not_dot (h : Unexpected (c :: rest)) : c ≠ '.' := by
  rintro rfl
  by_cases hr : ['.', '.'] <+: rest
  · obtain ⟨after, rfl⟩ := hr
    exact h.ne (Lexeme.spread : Lexeme after _ _) rfl
  · exact h.ne (.dot hr) rfl

theorem not_equals (h : Unexpected (c :: rest)) : c ≠ '=' := by
  rintro rfl
  by_cases hr : Stops (· == '>') rest
  · exact h.ne (.equals hr) rfl
  · simp only [Stops, Option.mem_def, beq_eq_false_iff_ne, not_forall, not_not] at hr
    obtain ⟨d, hd, rfl⟩ := hr
    obtain ⟨after, rfl⟩ := List.head?_eq_some_iff.1 hd
    exact h.ne (Lexeme.arrow : Lexeme after _ _) rfl

theorem not_number (h : Unexpected (c :: rest)) :
    ¬ (c.isDigit = true ∨ (c = '-' ∧ rest.head?.any Char.isDigit = true)) := by
  intro hd
  have ht : (rest.takeWhile Char.isDigit).head?.any Char.isDigit =
      rest.head?.any Char.isDigit := by
    cases rest with
    | nil => rfl
    | cons d rest => by_cases h : d.isDigit = true <;> simp [h]
  have hn : isNumeral (c :: rest.takeWhile Char.isDigit) = true := by
    simpa [isNumeral, ht, List.all_takeWhile] using hd
  exact h.ne (.number hn (stops_dropWhile _ rest)) (by simp)

theorem not_word (h : Unexpected (c :: rest)) : Text.isIdentifierStart c = false := by
  refine Bool.eq_false_iff.2 fun hd => ?_
  have hn : Text.isIdentifierChars (c :: rest.takeWhile Text.isIdentifierPart) = true := by
    simp only [Text.isIdentifierChars, hd, List.all_takeWhile, Bool.and_self]
  exact h.ne (.word hn (stops_dropWhile _ rest)) (by simp)

theorem not_punctuation (h : Unexpected (c :: rest)) : punctuation? c = none := by
  cases hp : punctuation? c with
  | none => rfl
  | some t => exact absurd rfl (h.ne (.mark hp))

end Unexpected

/-- Where no lexeme and no delimited part starts, the character is at fault. -/
theorem tokensFrom_unexpected (h : Unexpected (c :: rest)) :
    tokensFrom line (c :: rest) = .error (.unexpectedCharacter c line) := by
  have hb : ¬ Text.isBlank c = true := fun hb => h.ne (.blank hb) rfl
  refine tokensFrom_error line ?_
  rw [scan, if_neg hb, if_neg h.not_lineComment, if_neg h.not_blockComment, h.not_punctuation]
  simp only [if_neg h.not_dot, if_neg h.not_equals, if_neg h.not_quote, if_neg h.not_backtick,
    if_neg h.not_number, h.not_word, Bool.false_eq_true, if_false]

end

/-! ## Whole texts -/

/-- A piece of a text and the token that it is, if it is one. -/
structure Piece where
  text : List Char
  token : Option Token

/-- The text of pieces. -/
def spelled (ps : List Piece) : List Char := ps.flatMap Piece.text

/-- The pieces are lexemes, in front of `rest`. -/
def Cut (rest : List Char) : List Piece → Prop
  | [] => True
  | p :: ps => Lexeme (spelled ps ++ rest) p.text p.token ∧ Cut rest ps

/-- The tokens of the pieces that come after the text `before`: each is on the line
    of its first character, one more than the number of line ends before it. -/
def located (before : List Char) : List Piece → List Located
  | [] => []
  | p :: ps =>
    (p.token.map fun t => ⟨t, 1 + lineEnds before⟩).toList ++ located (before ++ p.text) ps

/-- No lexeme starts in the text. -/
inductive Stuck : List Char → Prop
  | unexpected {c rest} : Unexpected (c :: rest) → Stuck (c :: rest)
  | unclosed {part cs} : Unclosed part cs → Stuck cs

theorem Lexeme.ne_nil {rest cs : List Char} {token : Option Token} (h : Lexeme rest cs token) :
    cs ≠ [] := by
  rintro rfl
  generalize hcs : ([] : List Char) = cs at h
  cases h with
  | delimited h => cases h <;> cases hcs
  | number h => subst hcs; cases h
  | word h => subst hcs; cases h
  | _ => cases hcs

/-- Every text is cut into lexemes, up to its end or to where none starts. -/
theorem exists_cut (cs : List Char) :
    ∃ ps rest, Cut rest ps ∧ cs = spelled ps ++ rest ∧ (rest = [] ∨ Stuck rest) := by
  induction hn : cs.length using Nat.strongRecOn generalizing cs with
  | ind n ih =>
    subst hn
    by_cases h : ∃ lexeme after token, cs = lexeme ++ after ∧ Lexeme after lexeme token
    · obtain ⟨lexeme, after, token, rfl, hl⟩ := h
      have hlt : after.length < (lexeme ++ after).length := by
        have := List.length_pos_iff.2 hl.ne_nil
        simp; omega
      obtain ⟨ps, rest, hc, rfl, hr⟩ := ih _ hlt after rfl
      exact ⟨⟨lexeme, token⟩ :: ps, rest, ⟨hl, hc⟩, by simp [spelled], hr⟩
    · refine ⟨[], cs, trivial, rfl, ?_⟩
      cases cs with
      | nil => exact .inl rfl
      | cons c rest =>
        refine .inr ?_
        by_cases hu : ∃ part, Unclosed part (c :: rest)
        · obtain ⟨part, hu⟩ := hu
          exact .unclosed hu
        · exact .unexpected ⟨fun lexeme after token he hl => h ⟨lexeme, after, token, he, hl⟩,
            not_exists.1 hu⟩

/-- Pieces in front of `rest` give their tokens, and what follows starts on the
    line that they end on. -/
theorem tokensFrom_spelled {rest : List Char} {ps : List Piece} (h : Cut rest ps)
    (before : List Char) :
    tokensFrom (1 + lineEnds before) (spelled ps ++ rest) =
      (tokensFrom (1 + lineEnds (before ++ spelled ps)) rest).map fun s =>
        { s with tokens := located before ps ++ s.tokens } := by
  induction ps generalizing before with
  | nil =>
    simp only [spelled, List.flatMap_nil, List.append_nil, List.nil_append, located]
    cases tokensFrom (1 + lineEnds before) rest <;> rfl
  | cons p ps ih =>
    obtain ⟨hl, hc⟩ := h
    have htail := ih hc (before ++ p.text)
    have hs : spelled (p :: ps) = p.text ++ spelled ps := rfl
    rw [hs, List.append_assoc, tokensFrom_lexeme _ hl, Nat.add_assoc, ← lineEnds_append, htail,
      List.append_assoc]
    cases tokensFrom (1 + lineEnds (before ++ (p.text ++ spelled ps))) rest with
    | error e => rfl
    | ok s => cases ht : p.token <;> simp [Except.map, Stream.cons, located, ht]

/-- **Lines are exact.**  Every text is cut into lexemes to its end, and then its
    tokens are those of the pieces, each on the line where it starts, and the end
    is behind all line ends; or it is cut up to a place where none starts, and the
    fault is on the line of that place. -/
theorem tokens_lines (cs : List Char) :
    (∃ ps, Cut [] ps ∧ cs = spelled ps ∧
      tokens cs = .ok ⟨located [] ps, 1 + lineEnds cs⟩) ∨
    ∃ ps rest, Cut rest ps ∧ cs = spelled ps ++ rest ∧
      ((∃ c after, rest = c :: after ∧ Unexpected rest ∧
          tokens cs = .error (.unexpectedCharacter c (1 + lineEnds (spelled ps)))) ∨
        ∃ part, Unclosed part rest ∧
          tokens cs = .error (.unterminated part (1 + lineEnds (spelled ps)))) := by
  obtain ⟨ps, rest, hc, rfl, hr⟩ := exists_cut cs
  have ht := tokensFrom_spelled hc []
  rw [lineEnds_nil, Nat.add_zero, List.nil_append] at ht
  rcases hr with rfl | hr
  · refine .inl ⟨ps, hc, List.append_nil _, ?_⟩
    rw [tokens, ht, tokensFrom]
    simp [Except.map]
  · refine .inr ⟨ps, rest, hc, rfl, ?_⟩
    cases hr with
    | @unexpected c after hu =>
      refine .inl ⟨c, after, rfl, hu, ?_⟩
      rw [tokens, ht, tokensFrom_unexpected _ hu]
      rfl
    | @unclosed part _ hu =>
      refine .inr ⟨part, hu, ?_⟩
      rw [tokens, ht, tokensFrom_unclosed _ hu]
      rfl

end SchemaLoom.Source
