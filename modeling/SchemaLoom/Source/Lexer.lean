/-
  From characters to tokens.

  Blank characters and comments separate tokens; the line of a token is one
  more than the number of line ends before it.  `scan` takes one blank,
  comment or token; `tokensFrom` repeats it to the end of the text, which gets
  nearer with every step (`scan_shorter`).
-/
import SchemaLoom.Source.Error
import SchemaLoom.Text.Identifier

namespace SchemaLoom.Source

/-- The line behind the character `c`. -/
def lineAfter (c : Char) (line : Nat) : Nat := if c = '\n' then line + 1 else line

/-- What is taken from the start of a text: the rest of the text, and the line
    on which it starts. -/
structure Taken (α : Type) where
  value : α
  rest : List Char
  line : Nat

/-- The text behind the next `*/`. -/
def blockComment? (line : Nat) : List Char → Option (Taken Unit)
  | [] => none
  | '*' :: '/' :: rest => some ⟨(), rest, line⟩
  | c :: rest => blockComment? (lineAfter c line) rest

/-- The character that an escape stands for: `n` and `t` are a line end and a
    tab, every other character is itself. -/
def unescape (c : Char) : Char := if c = 'n' then '\n' else if c = 't' then '\t' else c

/-- The characters up to the closing quote.  A line end closes no literal, but
    it may be escaped. -/
def stringBody? (quote : Char) (line : Nat) : List Char → Option (Taken (List Char))
  | [] => none
  | c :: rest =>
    if c = quote then some ⟨[], rest, line⟩
    else if c = '\\' then
      match rest with
      | [] => none
      | e :: rest =>
        (stringBody? quote (lineAfter e line) rest).map fun t =>
          { t with value := unescape e :: t.value }
    else if c = '\n' then none
    else (stringBody? quote line rest).map fun t => { t with value := c :: t.value }

/-- The characters up to the closing backtick. -/
def templateBody? (line : Nat) : List Char → Option (Taken (List Char))
  | [] => none
  | c :: rest =>
    if c = '\x60' then some ⟨[], rest, line⟩
    else (templateBody? (lineAfter c line) rest).map fun t => { t with value := c :: t.value }

/-- The tokens that are one character. -/
def punctuation? (c : Char) : Option Token :=
  if c = '(' then some .leftParen
  else if c = ')' then some .rightParen
  else if c = '\x7b' then some .leftBrace
  else if c = '\x7d' then some .rightBrace
  else if c = '[' then some .leftBracket
  else if c = ']' then some .rightBracket
  else if c = ',' then some .comma
  else if c = ':' then some .colon
  else if c = ';' then some .semicolon
  else none

/-- The token that starts with `.`. -/
def dots (line : Nat) : List Char → Taken (Option Token)
  | '.' :: '.' :: rest => ⟨some .spread, rest, line⟩
  | rest => ⟨some .dot, rest, line⟩

/-- The token that starts with `=`. -/
def equalsOrArrow (line : Nat) : List Char → Taken (Option Token)
  | '>' :: rest => ⟨some .arrow, rest, line⟩
  | rest => ⟨some .equals, rest, line⟩

/-- The token of the characters that satisfy `p`, after the character `c`. -/
def run (token : String → Token) (p : Char → Bool) (line : Nat) (c : Char) (rest : List Char) :
    Taken (Option Token) :=
  ⟨some (token (String.ofList (c :: rest.takeWhile p))), rest.dropWhile p, line⟩

/-- A delimited part, or the fault of its missing end. -/
def delimited {α : Type} (part : Delimited) (line : Nat) (token : α → Option Token)
    (t : Option (Taken α)) : Except Error (Taken (Option Token)) :=
  match t with
  | some t => .ok ⟨token t.value, t.rest, t.line⟩
  | none => .error (.unterminated part line)

/-- Takes a blank character, a comment or a token from a text that starts with
    `c` on the given line. -/
def scan (line : Nat) (c : Char) (rest : List Char) : Except Error (Taken (Option Token)) :=
  if Text.isBlank c then .ok ⟨none, rest, lineAfter c line⟩
  else if c = '/' ∧ rest.head? = some '/' then .ok ⟨none, rest.dropWhile (· != '\n'), line⟩
  else if c = '/' ∧ rest.head? = some '*' then
    delimited .blockComment line (fun _ => none) (blockComment? line rest.tail)
  else
    match punctuation? c with
    | some t => .ok ⟨some t, rest, line⟩
    | none =>
      if c = '.' then .ok (dots line rest)
      else if c = '=' then .ok (equalsOrArrow line rest)
      else if c = '\'' ∨ c = '"' then
        delimited .string line (fun cs => some (.string (String.ofList cs)))
          (stringBody? c line rest)
      else if c = '\x60' then
        delimited .template line (fun cs => some (.template (String.ofList cs)))
          (templateBody? line rest)
      else if c.isDigit ∨ (c = '-' ∧ rest.head?.any Char.isDigit) then
        .ok (run .number Char.isDigit line c rest)
      else if Text.isIdentifierStart c then
        .ok (run .identifier Text.isIdentifierPart line c rest)
      else .error (.unexpectedCharacter c line)

/-! ## Every step shortens the text -/

theorem blockComment?_shorter {line : Nat} {cs : List Char} {t : Taken Unit}
    (h : blockComment? line cs = some t) : t.rest.length ≤ cs.length := by
  fun_induction blockComment? line cs with
  | case1 => simp at h
  | case2 line rest => cases h; simp only [List.length_cons]; omega
  | case3 line c rest _ ih => have := ih h; simp only [List.length_cons]; omega

theorem stringBody?_shorter {quote : Char} {line : Nat} {cs : List Char} {t : Taken (List Char)}
    (h : stringBody? quote line cs = some t) : t.rest.length ≤ cs.length := by
  fun_induction stringBody? quote line cs generalizing t with
  | case1 => simp at h
  | case2 => cases h; simp
  | case3 => simp at h
  | case4 line e rest _ ih =>
    obtain ⟨u, hu, rfl⟩ := Option.map_eq_some_iff.1 h
    have := ih hu
    simp only [List.length_cons]; omega
  | case5 => simp at h
  | case6 line c rest _ _ _ ih =>
    obtain ⟨u, hu, rfl⟩ := Option.map_eq_some_iff.1 h
    have := ih hu
    simp only [List.length_cons]; omega

theorem templateBody?_shorter {line : Nat} {cs : List Char} {t : Taken (List Char)}
    (h : templateBody? line cs = some t) : t.rest.length ≤ cs.length := by
  fun_induction templateBody? line cs generalizing t with
  | case1 => simp at h
  | case2 => cases h; simp
  | case3 line c rest _ ih =>
    obtain ⟨u, hu, rfl⟩ := Option.map_eq_some_iff.1 h
    have := ih hu
    simp only [List.length_cons]; omega

theorem delimited_shorter {α : Type} {part : Delimited} {line : Nat} {token : α → Option Token}
    {o : Option (Taken α)} {n : Nat} {t : Taken (Option Token)}
    (ho : ∀ u, o = some u → u.rest.length ≤ n) (h : delimited part line token o = .ok t) :
    t.rest.length ≤ n := by
  cases o with
  | none => simp [delimited] at h
  | some u => cases h; exact ho u rfl

theorem dots_shorter (line : Nat) (cs : List Char) : (dots line cs).rest.length ≤ cs.length := by
  unfold dots
  split
  · simp; omega
  · simp

theorem equalsOrArrow_shorter (line : Nat) (cs : List Char) :
    (equalsOrArrow line cs).rest.length ≤ cs.length := by
  unfold equalsOrArrow; split <;> simp

theorem run_shorter (token : String → Token) (p : Char → Bool) (line : Nat) (c : Char)
    (cs : List Char) : (run token p line c cs).rest.length ≤ cs.length :=
  (List.dropWhile_suffix p).length_le

/-- A step leaves a shorter text. -/
theorem scan_shorter {line : Nat} {c : Char} {rest : List Char} {t : Taken (Option Token)}
    (h : scan line c rest = .ok t) : t.rest.length ≤ rest.length := by
  unfold scan at h
  split at h
  · cases h; exact Nat.le_refl _
  split at h
  · cases h; exact (List.dropWhile_suffix _).length_le
  split at h
  · refine delimited_shorter (fun u hu => ?_) h
    have := blockComment?_shorter hu
    simp only [List.length_tail] at this; omega
  split at h
  · cases h; exact Nat.le_refl _
  split at h
  · cases h; exact dots_shorter _ _
  split at h
  · cases h; exact equalsOrArrow_shorter _ _
  split at h
  · exact delimited_shorter (fun u hu => stringBody?_shorter hu) h
  split at h
  · exact delimited_shorter (fun u hu => templateBody?_shorter hu) h
  split at h
  · cases h; exact run_shorter _ _ _ _ _
  split at h
  · cases h; exact run_shorter _ _ _ _ _
  · cases h

/-! ## The tokens of a text -/

/-- Puts a token in front of those that follow it. -/
def Stream.cons (line : Nat) (token : Option Token) (s : Stream) : Stream :=
  match token with
  | none => s
  | some t => { s with tokens := ⟨t, line⟩ :: s.tokens }

/-- The tokens of a text that starts on the given line. -/
def tokensFrom (line : Nat) (cs : List Char) : Except Error Stream :=
  match cs with
  | [] => .ok ⟨[], line⟩
  | c :: rest =>
    match _h : scan line c rest with
    | .error e => .error e
    | .ok t => (tokensFrom t.line t.rest).map (Stream.cons line t.value)
termination_by cs.length
decreasing_by have := scan_shorter ‹_›; simp only [List.length_cons]; omega

/-- The tokens of a text. -/
def tokens (cs : List Char) : Except Error Stream := tokensFrom 1 cs

end SchemaLoom.Source
