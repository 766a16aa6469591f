/-
  Words that survive being written in PascalCase.

  A re-reading of the words (`resplit`) goes from one capitalized text to the
  next.  It replaces capitals by small forms and leaves every other character
  as it is (`Lowers`), so the number of capitals falls until the words stay.

  * `settles_settledChars`: the re-reading ends with words that stay
    (`resplit_settledChars`), in a bounded number of passes (`Settles`);
  * `canonicalValue_canonicalValue`, `pascalCase_canonicalValue`: the form that
    survives is reached at once;
  * `pascalCase_survives`: all of this of every text.
-/
import SchemaLoom.Proofs.Text.CaseMap

namespace SchemaLoom.Text

/-! ## Words in lower case -/

/-- The text is made of small characters, and only `_` separates. -/
def Settled (cs : List Char) : Prop :=
  ∀ c ∈ cs, Small c ∧ (isSeparator c = true → c = '_')

theorem Settled.of_cons {c : Char} {cs : List Char} (h : Settled (c :: cs)) : Settled cs :=
  fun d hd => h d (List.mem_cons_of_mem c hd)

/-- Words are read in lower case. -/
theorem settled_snakeFrom (j : Joint) (cs : List Char) : Settled (snakeFrom j cs) := by
  induction cs generalizing j with
  | nil => exact fun _ hc => absurd hc List.not_mem_nil
  | cons c rest ih =>
    rw [snakeFrom]
    by_cases hc : isSeparator c = true
    · rw [if_pos hc]
      exact ih _
    · rw [if_neg hc]
      rw [Bool.not_eq_true] at hc
      intro d hd
      rcases List.mem_append.1 hd with hd | hd
      · rcases List.mem_append.1 hd with hd | hd
        · obtain rfl : d = '_' := by
            split at hd
            · exact List.mem_singleton.1 hd
            · cases hd
          exact ⟨by decide +kernel, fun _ => rfl⟩
        · refine ⟨small_of_mem_lowerCase hd, fun hs => ?_⟩
          rw [isSeparator_of_mem_lowerCase hc hd] at hs
          cases hs
      · exact ih _ d hd

theorem settled_snakeChars (cs : List Char) : Settled (snakeChars cs) := settled_snakeFrom .start cs

/-- Whether the next character starts a word whatever it is. -/
def Joint.fresh : Joint → Bool
  | .after _ => false
  | _ => true

/-- After a gap, a word starts with a joint. -/
theorem capitalizeFrom_gap (first : Bool) (cs : List Char) :
    capitalizeFrom first (snakeFrom .gap cs) = capitalizeFrom true (snakeFrom .gap cs) := by
  induction cs with
  | nil => rfl
  | cons c rest ih =>
    rw [snakeFrom]
    by_cases hs : isSeparator c = true
    · rw [if_pos hs]
      exact ih
    · rw [if_neg hs]
      rfl

/-- Words that are split further are capitalized to the same text: only capitals
    without a small form start new words. -/
theorem capitalizeFrom_snakeFrom {cs : List Char} (h : Settled cs) (j : Joint) :
    capitalizeFrom j.fresh (snakeFrom j cs) = capitalizeFrom j.fresh cs := by
  induction cs generalizing j with
  | nil => rfl
  | cons c rest ih =>
    have ih := ih h.of_cons
    obtain ⟨hc, hu⟩ := h c List.mem_cons_self
    rw [snakeFrom]
    by_cases hs : isSeparator c = true
    · obtain rfl := hu hs
      rw [if_pos hs, capitalizeFrom, if_pos rfl]
      cases j with
      | start => exact ih .start
      | gap => exact ih .gap
      | after p => exact (capitalizeFrom_gap _ _).trans (ih .gap)
    · have hne : c ≠ '_' := by
        rintro rfl
        exact hs (by decide)
      have ih : capitalizeFrom false (snakeFrom (.after c) rest) = capitalizeFrom false rest :=
        ih (.after c)
      have hl : lowerCase c = [c] := hc
      rw [if_neg hs, hl]
      cases j with
      | start => simp [Joint.breaks, Joint.fresh, capitalizeFrom, hne, ih]
      | gap => simp [Joint.breaks, Joint.fresh, capitalizeFrom, hne, ih]
      | after p =>
        by_cases hw : startsWord p c rest.head? = true
        · have hcap : isUppercase c = true := by
            rw [startsWord, Bool.and_eq_true] at hw
            exact hw.1
          simp [Joint.breaks, Joint.fresh, capitalizeFrom, hne, ih, hw, hc.capitalizes.capital hcap]
        · simp [Joint.breaks, Joint.fresh, capitalizeFrom, hne, ih, hw]

/-! ## Capitalized texts -/

/-- The text is made of small characters and capitals of small ones, without
    separators, and its first character may start a word. -/
structure Capitalized (cs : List Char) : Prop where
  forms : ∀ c ∈ cs, Small c ∨ Stands c
  apart : ∀ c ∈ cs, isSeparator c = false
  head : ∀ c ∈ cs.head?, Stands c

theorem isSeparator_underscore : isSeparator '_' = true := by decide

theorem underscore_not_mem_lowerCase {c : Char} (hc : isSeparator c = false) :
    '_' ∉ lowerCase c := by
  intro hm
  have hs := isSeparator_of_mem_lowerCase hc hm
  rw [isSeparator_underscore] at hs
  cases hs

/-- The characters of words that are written in PascalCase. -/
theorem forms_capitalizeFrom {cs : List Char} (h : Settled cs) (first : Bool) :
    ∀ u ∈ capitalizeFrom first cs, (Small u ∨ Stands u) ∧ isSeparator u = false := by
  induction cs generalizing first with
  | nil => exact fun _ hu => absurd hu List.not_mem_nil
  | cons c rest ih =>
    have ih := ih h.of_cons
    obtain ⟨hc, hu⟩ := h c List.mem_cons_self
    rw [capitalizeFrom]
    by_cases hne : c = '_'
    · rw [if_pos hne]
      exact ih true
    · have hs : isSeparator c = false := Bool.eq_false_iff.2 (mt hu hne)
      rw [if_neg hne]
      intro u hm
      rcases List.mem_append.1 hm with hm | hm
      · cases first with
        | true => exact ⟨hc.capitalizes.forms u hm, hc.capitalizes.apart hs u hm⟩
        | false =>
          obtain rfl := List.mem_singleton.1 hm
          exact ⟨.inl hc, hs⟩
      · exact ih false u hm

theorem capitalized_capitalizeWords {cs : List Char} (h : Settled cs) :
    Capitalized (capitalizeWords cs) where
  forms u hu := (forms_capitalizeFrom h true u hu).1
  apart u hu := (forms_capitalizeFrom h true u hu).2
  head := by
    rw [capitalizeWords]
    induction cs with
    | nil => exact fun _ hu => absurd hu (by simp [capitalizeFrom])
    | cons c rest ih =>
      rw [capitalizeFrom]
      by_cases hne : c = '_'
      · rw [if_pos hne]
        exact ih h.of_cons
      · obtain ⟨u, us, hu, hs⟩ := (h c List.mem_cons_self).1.capitalizes.head
        rw [if_neg hne, if_pos rfl, hu]
        intro v hv
        obtain rfl : u = v := by simpa using hv
        exact hs

theorem length_capitalizeFrom_le {cs : List Char} (h : Settled cs) (first : Bool) :
    (capitalizeFrom first cs).length ≤ 3 * cs.length := by
  induction cs generalizing first with
  | nil => simp [capitalizeFrom]
  | cons c rest ih =>
    have ih := ih h.of_cons
    have hl := (h c List.mem_cons_self).1.capitalizes.length
    rw [capitalizeFrom, List.length_cons]
    by_cases hne : c = '_'
    · rw [if_pos hne]
      have := ih true
      omega
    · have := ih false
      rw [if_neg hne, List.length_append]
      cases first <;> simp <;> omega

/-! ## One re-reading -/

/-- The second text is the first with small forms in the place of some
    characters. -/
def Lowers : List Char → List Char → Prop := List.Forall₂ fun c d => d = c ∨ lowerCase c = [d]

theorem stands_of_isUppercase {c : Char} (h : Small c ∨ Stands c) (hu : isUppercase c = true) :
    Stands c := by
  rcases h with h | h
  · exact ⟨c, h, h.capitalizes.capital hu⟩
  · exact h

theorem exists_lowerCase_eq {c : Char} (h : Small c ∨ Stands c) : ∃ l, lowerCase c = [l] :=
  h.elim (fun h => ⟨c, h⟩) fun ⟨l, h, _⟩ => ⟨l, h⟩

/-- Of a capitalized text that is read as words and capitalized again, a character
    stays if it starts a word, and becomes small otherwise. -/
theorem capitalizeFrom_snakeFrom_cons {c : Char} {rest : List Char} {j : Joint}
    (hc : Small c ∨ Stands c) (hs : isSeparator c = false) (hj : j.fresh = true → Stands c) :
    capitalizeFrom j.fresh (snakeFrom j (c :: rest)) =
      (if (j.fresh || j.breaks c rest.head?) = true then [c] else lowerCase c) ++
        capitalizeFrom false (snakeFrom (.after c) rest) := by
  obtain ⟨l, hl⟩ := exists_lowerCase_eq hc
  have hne : l ≠ '_' := by
    rintro rfl
    exact underscore_not_mem_lowerCase hs (by simp [hl])
  rw [snakeFrom, if_neg (Bool.eq_false_iff.1 hs), hl]
  by_cases hw : (j.fresh || j.breaks c rest.head?) = true
  · have hst : Stands c := by
      cases j with
      | start => exact hj rfl
      | gap => exact hj rfl
      | after p =>
        refine stands_of_isUppercase hc ?_
        rw [Joint.fresh, Bool.false_or, Joint.breaks, startsWord, Bool.and_eq_true] at hw
        exact hw.1
    obtain ⟨k, hk, hu⟩ := hst
    obtain rfl : l = k := by simpa [hl] using hk
    rw [if_pos hw]
    by_cases hb : j.breaks c rest.head? = true
    · simp [hb, capitalizeFrom, hne, hu]
    · rw [Bool.eq_false_iff.2 hb, Bool.or_false] at hw
      simp [hb, hw, capitalizeFrom, hne, hu]
  · rw [if_neg hw]
    simp only [Bool.or_eq_true, not_or, Bool.not_eq_true] at hw
    simp [hw.1, hw.2, capitalizeFrom, hne]

/-- The first characters of words stay, and the others become small. -/
theorem lowers_capitalizeFrom {cs : List Char} (hf : ∀ c ∈ cs, Small c ∨ Stands c)
    (ha : ∀ c ∈ cs, isSeparator c = false) (j : Joint)
    (hj : j.fresh = true → ∀ c ∈ cs.head?, Stands c) :
    Lowers cs (capitalizeFrom j.fresh (snakeFrom j cs)) := by
  induction cs generalizing j with
  | nil => exact .nil
  | cons c rest ih =>
    have hc := hf c List.mem_cons_self
    obtain ⟨l, hl⟩ := exists_lowerCase_eq hc
    have ih : Lowers rest (capitalizeFrom false (snakeFrom (.after c) rest)) :=
      ih (fun d hd => hf d (List.mem_cons_of_mem c hd))
        (fun d hd => ha d (List.mem_cons_of_mem c hd)) (.after c) nofun
    rw [capitalizeFrom_snakeFrom_cons hc (ha c List.mem_cons_self) fun h => hj h c rfl, hl]
    split
    · exact .cons (.inl rfl) ih
    · exact .cons (.inr hl) ih

theorem Capitalized.lowers {cs : List Char} (h : Capitalized cs) :
    Lowers cs (capitalizeWords (snakeChars cs)) :=
  lowers_capitalizeFrom h.forms h.apart .start fun _ => h.head

/-- The number of characters that have another small form. -/
def capitals (cs : List Char) : Nat := cs.countP fun c => !decide (Small c)

theorem Lowers.capitals_le {cs ds : List Char} (h : Lowers cs ds) :
    capitals ds ≤ capitals cs ∧ (capitals ds = capitals cs → ds = cs) := by
  induction h with
  | nil => exact ⟨Nat.le_refl _, fun _ => rfl⟩
  | @cons c d cs ds hcd h ih =>
    simp only [capitals, List.countP_cons] at ih ⊢
    by_cases hc : Small c
    · obtain rfl : d = c := by
        rcases hcd with rfl | hcd
        · rfl
        · rw [Small] at hc
          exact (List.singleton_inj.1 (hc.symm.trans hcd)).symm
      simp only [hc, decide_true, Bool.not_true, List.cons.injEq, true_and]
      exact ih
    · rcases hcd with rfl | hcd
      · simp only [hc, List.cons.injEq, true_and, Nat.add_right_cancel_iff]
        exact ⟨Nat.add_le_add_right ih.1 _, ih.2⟩
      · have hd : Small d := small_of_mem_lowerCase (hcd ▸ List.mem_singleton.2 rfl)
        simp only [hc, hd, decide_true, decide_false, Bool.not_true, Bool.not_false]
        refine ⟨by simp; omega, fun he => ?_⟩
        simp at he
        omega

/-! ## The end of the re-reading -/

theorem settle_of_resplit_eq {snake : List Char} (h : resplit snake = snake) (limit : Nat) :
    settle limit snake = snake := by
  cases limit with
  | zero => rfl
  | succ limit => rw [settle, if_pos h]

/-- Re-read until they stay, the words `snake` become `words` in pass number
    `passes`, the one that finds them as they are. -/
inductive Settles : List Char → Nat → List Char → Prop
  | stays {snake : List Char} (h : resplit snake = snake) : Settles snake 1 snake
  | again {snake words : List Char} {passes : Nat} (h : resplit snake ≠ snake)
      (hw : Settles (resplit snake) passes words) : Settles snake (passes + 1) words

/-- The words stay in the end: with every re-reading that changes them, there is
    a capital less. -/
theorem exists_settles {snake : List Char} (h : Settled snake) :
    ∃ passes ≤ capitals (capitalizeWords snake) + 2, ∃ words, Settles snake passes words := by
  induction hn : capitals (capitalizeWords snake) using Nat.strongRecOn generalizing snake with
  | ind n ih =>
    subst hn
    by_cases hr : resplit snake = snake
    · exact ⟨1, by omega, snake, .stays hr⟩
    · obtain ⟨hle, heq⟩ := (capitalized_capitalizeWords h).lowers.capitals_le
      by_cases hc : capitalizeWords (resplit snake) = capitalizeWords snake
      · exact ⟨2, by omega, resplit snake, .again hr (.stays (congrArg snakeChars hc))⟩
      · have hlt : capitals (capitalizeWords (resplit snake)) < capitals (capitalizeWords snake) :=
          Nat.lt_of_le_of_ne hle (mt heq hc)
        obtain ⟨passes, hp, words, hw⟩ := ih _ hlt (settled_snakeChars _) rfl
        exact ⟨passes + 1, by omega, words, .again hr hw⟩

theorem Settles.resplit_eq {snake words : List Char} {passes : Nat}
    (h : Settles snake passes words) : resplit words = words := by
  induction h with
  | stays h => exact h
  | again _ _ ih => exact ih

/-- A limit that leaves room for the passes does not cut the re-reading short. -/
theorem Settles.settle_eq {snake words : List Char} {passes limit : Nat}
    (h : Settles snake passes words) (hl : passes ≤ limit + 1) : settle limit snake = words := by
  induction h generalizing limit with
  | stays h => exact settle_of_resplit_eq h limit
  | @again snake words passes h hw ih =>
    obtain ⟨limit, rfl⟩ : ∃ l, limit = l + 1 := by
      cases hw <;> exact Nat.exists_eq_add_one.2 (by omega)
    rw [settle, if_neg h]
    exact ih (by omega)

theorem settled_settle {snake : List Char} (h : Settled snake) (limit : Nat) :
    Settled (settle limit snake) := by
  induction limit generalizing snake with
  | zero => exact h
  | succ limit ih =>
    rw [settle]
    split
    · exact h
    · exact ih (settled_snakeChars _)

theorem lt_settleLimit (n : Nat) : 3 * n + 2 < settleLimit n :=
  Nat.lt_of_lt_of_le (by omega) (Nat.le_mul_of_pos_right (3 * (n + 1)) n.succ_pos)

/-- **The re-reading ends**, in a number of passes that is bounded by the length
    of the words. -/
theorem settles_settledChars (cs : List Char) :
    ∃ passes ≤ 3 * (snakeChars cs).length + 2,
      Settles (snakeChars cs) passes (settledChars cs) := by
  obtain ⟨passes, hp, words, hw⟩ := exists_settles (settled_snakeChars cs)
  have hc : capitals (capitalizeWords (snakeChars cs)) ≤ 3 * (snakeChars cs).length :=
    Nat.le_trans List.countP_le_length (length_capitalizeFrom_le (settled_snakeChars cs) true)
  have hl := lt_settleLimit (snakeChars cs).length
  obtain rfl : settledChars cs = words := hw.settle_eq (by omega)
  exact ⟨passes, by omega, hw⟩

/-- What is written in PascalCase splits back into the words it was written from. -/
theorem resplit_settledChars (cs : List Char) : resplit (settledChars cs) = settledChars cs := by
  obtain ⟨_, _, h⟩ := settles_settledChars cs
  exact h.resplit_eq

/-- The words that survive are reached at once. -/
theorem settledChars_settledChars (cs : List Char) :
    settledChars (settledChars cs) = settledChars cs := by
  have hs : Settled (settledChars cs) := settled_settle (settled_snakeChars cs) _
  have hr : resplit (snakeChars (settledChars cs)) = settledChars cs := by
    have hcap : capitalizeWords (snakeChars (settledChars cs)) =
        capitalizeWords (settledChars cs) := capitalizeFrom_snakeFrom hs .start
    rw [resplit, hcap]
    exact resplit_settledChars cs
  rw [settledChars]
  obtain ⟨limit, hlimit⟩ : ∃ limit, settleLimit (snakeChars (settledChars cs)).length = limit + 1 :=
    Nat.exists_eq_add_one.2 (Nat.zero_lt_of_lt (lt_settleLimit _))
  rw [hlimit, settle, hr]
  split
  next h => exact h.symm
  · exact settle_of_resplit_eq (resplit_settledChars cs) limit

theorem canonicalValue_eq (s : String) :
    canonicalValue s = String.ofList (settledChars s.toList) :=
  congrArg String.ofList (resplit_settledChars s.toList)

/-- **The form that survives PascalCase survives it as it is.** -/
theorem canonicalValue_canonicalValue (s : String) :
    canonicalValue (canonicalValue s) = canonicalValue s := by
  rw [canonicalValue_eq, canonicalValue_eq, String.toList_ofList, settledChars_settledChars]

/-- The words that survive are capitalized as those they survive of. -/
theorem pascalCase_canonicalValue (s : String) :
    pascalCase (canonicalValue s) = pascalCase s := by
  rw [canonicalValue_eq, pascalCase, pascalCase, pascalChars, pascalChars, String.toList_ofList,
    settledChars_settledChars]

/-- **Every text has a PascalCase form, which survives being read as words and
    written again**: the re-reading of its words ends after a bounded number of
    passes, and what it leaves is left by it as it is. -/
theorem pascalCase_survives (s : String) :
    (∃ passes ≤ 3 * (snakeChars s.toList).length + 2, ∃ words,
      Settles (snakeChars s.toList) passes words ∧
      pascalCase s = String.ofList (capitalizeWords words)) ∧
    pascalCase (snakeCase (pascalCase s)) = pascalCase s ∧
    canonicalValue (canonicalValue s) = canonicalValue s ∧
    pascalCase (canonicalValue s) = pascalCase s := by
  refine ⟨?_, ?_, canonicalValue_canonicalValue s, pascalCase_canonicalValue s⟩
  · obtain ⟨passes, hp, h⟩ := settles_settledChars s.toList
    exact ⟨passes, hp, settledChars s.toList, h, rfl⟩
  · have hsnake : snakeCase (pascalCase s) = canonicalValue s := by
      rw [snakeCase, pascalCase, String.toList_ofList, canonicalValue]
    rw [hsnake, pascalCase_canonicalValue]

end SchemaLoom.Text
