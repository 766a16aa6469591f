/-
  Comments, string literals and template literals, from their opening marks to
  their ends, and the lines that they go over.

  For each, what is taken up to the end is what stands before the first closing
  mark (`blockComment?_eq_some`, `stringBody?_eq_some`, `templateBody?_eq_some`),
  and a part that has an end is taken up to it (`blockComment?_append`,
  `stringBody?_append`, `templateBody?_append`).
-/
import Mathlib.Data.List.Infix
import SchemaLoom.Source.Lexer

namespace SchemaLoom.Source

/-! ## Line ends -/

/-- The number of line ends in a text. -/
def lineEnds (cs : List Char) : Nat := cs.count '\n'

@[simp] theorem lineEnds_nil : lineEnds [] = 0 := rfl

@[simp] theorem lineEnds_append (cs ds : List Char) :
    lineEnds (cs ++ ds) = lineEnds cs + lineEnds ds := List.count_append

theorem lineEnds_cons (c : Char) (cs : List Char) :
    lineEnds (c :: cs) = lineAfter c (lineEnds cs) := by
  simp only [lineEnds, lineAfter, List.count_cons, beq_iff_eq]
  split <;> rfl

theorem lineAfter_add (c : Char) (line n : Nat) :
    lineAfter c line + n = line + lineAfter c n := by
  simp only [lineAfter]
  split <;> omega

theorem lineEnds_cons_of_ne {c : Char} (h : c ≠ '\n') (cs : List Char) :
    lineEnds (c :: cs) = lineEnds cs := by
  rw [lineEnds_cons, lineAfter, if_neg h]

theorem lineEnds_eq_zero {cs : List Char} (h : '\n' ∉ cs) : lineEnds cs = 0 :=
  List.count_eq_zero.2 h

/-! ## Delimited parts -/

/-- What stands between two quotes denotes a text: quotes, backslashes and line
    ends are escaped. -/
inductive Denotes (quote : Char) : List Char → List Char → Prop
  | nil : Denotes quote [] []
  | escape {e cs text} : Denotes quote cs text →
      Denotes quote ('\\' :: e :: cs) (unescape e :: text)
  | plain {c cs text} : c ≠ quote → c ≠ '\\' → c ≠ '\n' → Denotes quote cs text →
      Denotes quote (c :: cs) (c :: text)

section
variable {quote : Char} {line : Nat} {cs body text : List Char} (rest : List Char)

/-- Whether a comment ends in a text is decided at its first character, or behind it. -/
theorem commentEnd_infix_cons {c : Char} :
    ['*', '/'] <:+: c :: cs ↔ (c = '*' ∧ cs.head? = some '/') ∨ ['*', '/'] <:+: cs := by
  rw [List.infix_cons_iff, List.cons_prefix_cons]
  refine or_congr_left (and_congr eq_comm ?_)
  cases cs with
  | nil => simp
  | cons d ds => simp [eq_comm]

theorem blockComment?_eq_some {t : Taken Unit} (h : blockComment? line cs = some t) :
    ∃ body, ¬ ['*', '/'] <:+: body ++ ['*'] ∧ cs = body ++ '*' :: '/' :: t.rest ∧
      t.line = line + lineEnds body := by
  fun_induction blockComment? line cs with
  | case1 => simp at h
  | case2 line rest =>
    cases h
    exact ⟨[], by decide, rfl, rfl⟩
  | case3 line c rest hne ih =>
    obtain ⟨body, hb, rfl, hl⟩ := ih h
    refine ⟨c :: body, ?_, rfl, ?_⟩
    · rw [List.cons_append, commentEnd_infix_cons]
      rintro (⟨rfl, hd⟩ | hi)
      · cases body with
        | nil => simp at hd
        | cons d body =>
          obtain rfl : d = '/' := by simpa using hd
          exact hne _ rfl rfl
      · exact hb hi
    · rw [hl, lineAfter_add, ← lineEnds_cons]

theorem blockComment?_append (h : ¬ ['*', '/'] <:+: body ++ ['*']) (line : Nat) :
    blockComment? line (body ++ '*' :: '/' :: rest) = some ⟨(), rest, line + lineEnds body⟩ := by
  induction body generalizing line with
  | nil => rfl
  | cons c body ih =>
    rw [List.cons_append, commentEnd_infix_cons, not_or] at h
    rw [List.cons_append, blockComment?]
    · rw [ih h.2, lineAfter_add, ← lineEnds_cons]
    · rintro ds rfl hd
      cases body with
      | nil => simp at hd
      | cons d body => exact h.1 ⟨rfl, by simpa using (List.cons.inj hd).1⟩

theorem stringBody?_eq_some {t : Taken (List Char)} (h : stringBody? quote line cs = some t) :
    ∃ body, Denotes quote body t.value ∧ cs = body ++ quote :: t.rest ∧
      t.line = line + lineEnds body := by
  fun_induction stringBody? quote line cs generalizing t with
  | case1 => simp at h
  | case2 =>
    cases h
    exact ⟨[], .nil, rfl, rfl⟩
  | case3 => simp at h
  | case4 line e rest _ ih =>
    obtain ⟨u, hu, rfl⟩ := Option.map_eq_some_iff.1 h
    obtain ⟨body, hb, rfl, hl⟩ := ih hu
    refine ⟨'\\' :: e :: body, hb.escape, rfl, ?_⟩
    rw [hl, lineAfter_add, lineEnds_cons_of_ne (by decide), lineEnds_cons]
  | case5 => simp at h
  | case6 line c rest hq he hn ih =>
    obtain ⟨u, hu, rfl⟩ := Option.map_eq_some_iff.1 h
    obtain ⟨body, hb, rfl, hl⟩ := ih hu
    refine ⟨c :: body, .plain hq he hn hb, rfl, ?_⟩
    rw [hl, lineEnds_cons_of_ne hn]

theorem stringBody?_append (hq : quote ≠ '\\') (h : Denotes quote body text) (line : Nat) :
    stringBody? quote line (body ++ quote :: rest) =
      some ⟨text, rest, line + lineEnds body⟩ := by
  induction h generalizing line with
  | nil =>
    rw [List.nil_append, stringBody?.eq_def]
    simp
  | @escape e cs text h ih =>
    simp [stringBody?, hq.symm, ih, lineAfter_add, ← lineEnds_cons,
      lineEnds_cons_of_ne (show '\\' ≠ '\n' by decide)]
  | @plain c cs text h₁ h₂ h₃ h ih =>
    rw [List.cons_append, stringBody?.eq_def]
    simp [h₁, h₂, h₃, ih, lineEnds_cons_of_ne h₃]

theorem templateBody?_eq_some {t : Taken (List Char)} (h : templateBody? line cs = some t) :
    '\x60' ∉ t.value ∧ cs = t.value ++ '\x60' :: t.rest ∧ t.line = line + lineEnds t.value := by
  fun_induction templateBody? line cs generalizing t with
  | case1 => simp at h
  | case2 =>
    cases h
    simp
  | case3 line c rest hc ih =>
    obtain ⟨u, hu, rfl⟩ := Option.map_eq_some_iff.1 h
    obtain ⟨hb, rfl, hl⟩ := ih hu
    refine ⟨?_, rfl, ?_⟩
    · simp [hb, Ne.symm hc]
    · rw [hl, lineAfter_add, ← lineEnds_cons]

theorem templateBody?_append (h : '\x60' ∉ body) (line : Nat) :
    templateBody? line (body ++ '\x60' :: rest) = some ⟨body, rest, line + lineEnds body⟩ := by
  induction body generalizing line with
  | nil => simp [templateBody?]
  | cons c body ih =>
    simp only [List.mem_cons, not_or] at h
    simp [templateBody?, Ne.symm h.1, ih h.2, lineAfter_add, ← lineEnds_cons]

end

end SchemaLoom.Source
