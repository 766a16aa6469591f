/-
  What a re-reading does to the words.

  A re-reading only joins words if the first character of each word comes back from
  its capital form, and no other one starts a word behind it (`Survive`).  Then the
  words become fewer until they stay.  A ligature such as `ﬁ` does not come back:
  it is capitalized to two letters, which may be read as two words.

  * `joined_resplit_iff`: when a re-reading only joins words;
  * `capitalizeWords_resplit`: what is capitalized the second time stays, so that
    the third re-reading changes nothing (`settles_three`);
  * `settles_of_survive`: while words are only joined, there are no more passes than
    words;
  * `resplit_exact`: all of this of every text.
-/
import Mathlib.Logic.Function.Iterate
import SchemaLoom.Proofs.Text.Casing

namespace SchemaLoom.Text

/-! ## Words of a text -/

/-- The words between the joints. -/
def words (snake : List Char) : List (List Char) :=
  (snake.splitOn '_').filter fun w => !w.isEmpty

/-- The word with its first character capitalized. -/
def capitalize : List Char → List Char
  | [] => []
  | c :: cs => upperCase c ++ cs

section
variable {snake word rest : List Char}

theorem ne_nil_of_mem_words (h : word ∈ words snake) : word ≠ [] := by
  simpa using (List.mem_filter.1 h).2

theorem words_of_not_mem (hm : '_' ∉ word) (hn : word ≠ []) : words word = [word] := by
  simp [words, List.splitOn_eq_singleton hm, hn]

theorem words_append_cons (hm : '_' ∉ word) (hn : word ≠ []) :
    words (word ++ '_' :: rest) = word :: words rest := by
  simp [words, List.splitOn_append_cons_self_of_not_mem hm, hn]

/-- What is read up to here belongs to the first word. -/
theorem exists_words_append (hm : '_' ∉ word) (hn : word ≠ []) (rest : List Char) :
    ∃ more others, words (word ++ rest) = (word ++ more) :: others := by
  by_cases h : '_' ∈ rest
  · obtain ⟨more, after, rfl, hmore⟩ := List.eq_append_cons_of_mem h
    refine ⟨more, words after, ?_⟩
    rw [← List.append_assoc, words_append_cons (by simp [hm, hmore]) (by simp [hn])]
  · exact ⟨rest, [], words_of_not_mem (by simp [hm, h]) (by simp [hn])⟩

theorem flatten_words (snake : List Char) : (words snake).flatten = snake.filter (· != '_') := by
  rw [words, List.flatten_filter_not_isEmpty]
  induction snake with
  | nil => rfl
  | cons c rest ih =>
    obtain ⟨first, others, hs⟩ := List.exists_cons_of_ne_nil (List.splitOn_ne_nil '_' rest)
    rw [List.splitOn_cons_eq_if_modifyHead, List.filter_cons, ← ih]
    by_cases hc : c = '_' <;> simp [hc, hs]

theorem mem_of_mem_words {c : Char} (h : word ∈ words snake) (hc : c ∈ word) :
    c ∈ snake ∧ c ≠ '_' := by
  have hf : c ∈ (words snake).flatten := List.mem_flatten_of_mem h hc
  simpa [flatten_words] using hf

/-- The words are capitalized one by one. -/
theorem capitalizeFrom_words (snake : List Char) :
    capitalizeFrom true snake = (words snake).flatMap capitalize ∧
      ∀ word, '_' ∉ word → word ≠ [] →
        capitalize word ++ capitalizeFrom false snake =
          (words (word ++ snake)).flatMap capitalize := by
  induction snake with
  | nil =>
    refine ⟨rfl, fun word hm hn => ?_⟩
    rw [List.append_nil, words_of_not_mem hm hn]
    simp [capitalizeFrom]
  | cons c rest ih =>
    obtain ⟨ihtrue, ihfalse⟩ := ih
    by_cases hc : c = '_'
    · subst hc
      refine ⟨?_, fun word hm hn => ?_⟩
      · rw [capitalizeFrom, if_pos rfl, ihtrue]
        simp [words, List.splitOn_cons_eq_if_modifyHead]
      · rw [capitalizeFrom, if_pos rfl, ihtrue, words_append_cons hm hn, List.flatMap_cons]
    · refine ⟨?_, fun word hm hn => ?_⟩
      · rw [capitalizeFrom, if_neg hc, if_pos rfl]
        have := ihfalse [c] (by simp [Ne.symm hc]) (by simp)
        simpa [capitalize] using this
      · rw [capitalizeFrom, if_neg hc]
        have := ihfalse (word ++ [c]) (by simp [hm, Ne.symm hc]) (by simp)
        obtain ⟨d, ds, rfl⟩ := List.exists_cons_of_ne_nil hn
        simpa [capitalize] using this

theorem capitalizeWords_eq (snake : List Char) :
    capitalizeWords snake = (words snake).flatMap capitalize :=
  (capitalizeFrom_words snake).1

end

/-! ## Joining words -/

/-- The second words are the first ones, some neighbours joined. -/
inductive Joined : List (List Char) → List (List Char) → Prop
  | nil : Joined [] []
  | keep {w ws vs} : Joined ws vs → Joined (w :: ws) (w :: vs)
  | join {w w' ws vs} : Joined ((w ++ w') :: ws) vs → Joined (w :: w' :: ws) vs

namespace Joined

variable {w w' v : List Char} {ws vs : List (List Char)}

theorem refl : ∀ ws, Joined ws ws
  | [] => .nil
  | _ :: ws => .keep (refl ws)

theorem flatten_eq (h : Joined ws vs) : vs.flatten = ws.flatten := by
  induction h with
  | nil => rfl
  | keep _ ih => rw [List.flatten_cons, List.flatten_cons, ih]
  | join _ ih => rw [ih, List.flatten_cons, List.flatten_cons, List.flatten_cons, List.append_assoc]

/-- Words that are joined are fewer. -/
theorem eq_or_length_lt (h : Joined ws vs) :
    vs = ws ∨ 0 < vs.length ∧ vs.length < ws.length := by
  induction h with
  | nil => exact .inl rfl
  | keep _ ih =>
    simp only [List.length_cons]
    rcases ih with rfl | ih
    · exact .inl rfl
    · exact .inr (by omega)
  | join _ ih =>
    simp only [List.length_cons] at ih ⊢
    right
    rcases ih with rfl | ih
    · simp
    · omega

/-- A joined word starts as the first of its parts. -/
theorem exists_head (h : Joined ws vs) (hn : ∀ w ∈ ws, w ≠ []) :
    ∀ v ∈ vs, ∃ w ∈ ws, v.head? = w.head? := by
  induction h with
  | nil => exact fun v hv => absurd hv List.not_mem_nil
  | @keep w ws vs _ ih =>
    rw [List.forall_mem_cons] at hn ⊢
    refine ⟨⟨w, List.mem_cons_self, rfl⟩, fun v hv => ?_⟩
    obtain ⟨w', hw', he⟩ := ih hn.2 v hv
    exact ⟨w', List.mem_cons_of_mem w hw', he⟩
  | @join w w' ws vs _ ih =>
    obtain ⟨hw, hn⟩ := List.forall_mem_cons.1 hn
    obtain ⟨-, hn⟩ := List.forall_mem_cons.1 hn
    have hj : ∀ u ∈ (w ++ w') :: ws, u ≠ [] := List.forall_mem_cons.2 ⟨by simp [hw], hn⟩
    intro v hv
    obtain ⟨u, hu, he⟩ := ih hj v hv
    rcases List.mem_cons.1 hu with rfl | hu
    · exact ⟨w, List.mem_cons_self, by rw [he, List.head?_append_of_ne_nil _ hw]⟩
    · exact ⟨u, List.mem_cons_of_mem _ (List.mem_cons_of_mem _ hu), he⟩

theorem length_head_le {ws : List (List Char)} (h : Joined (w :: ws) (v :: vs)) :
    w.length ≤ v.length := by
  induction ws generalizing w with
  | nil =>
    cases h with
    | keep _ => exact Nat.le_refl _
  | cons w' ws ih =>
    cases h with
    | keep _ => exact Nat.le_refl _
    | join h =>
      have := ih h
      rw [List.length_append] at this
      omega

/-- A word that is there is not joined. -/
theorem cons_iff (hw : w' ≠ []) :
    Joined (w :: w' :: ws) (w :: vs) ↔ Joined (w' :: ws) vs := by
  refine ⟨fun h => ?_, .keep⟩
  cases h with
  | keep h => exact h
  | join h =>
    have := h.length_head_le
    have := List.length_pos_iff.2 hw
    rw [List.length_append] at *
    omega

/-- A word that is not there is joined. -/
theorem join_iff (hv : w.length < v.length) :
    Joined (w :: w' :: ws) (v :: vs) ↔ Joined ((w ++ w') :: ws) (v :: vs) := by
  refine ⟨fun h => ?_, .join⟩
  cases h with
  | keep _ => exact absurd hv (Nat.lt_irrefl _)
  | join h => exact h

end Joined

/-! ## Words that survive a re-reading -/

/-- The small character has the one capital `u` and comes back from it. -/
def Turns (c u : Char) : Prop := upperCase c = [u] ∧ lowerCase u = [c]

/-- The first character of the word comes back from its capital form. -/
def Returns (w : List Char) : Prop := ∃ c ∈ w.head?, ∃ u, Turns c u

/-- No character of `cs`, between `prev` and `rest`, starts a word. -/
def Unbroken (rest : List Char) : Char → List Char → Prop
  | _, [] => True
  | prev, c :: cs => startsWord prev c (cs ++ rest).head? = false ∧ Unbroken rest c cs

/-- The first character of each word comes back, and behind its capital no other
    one starts a word. -/
def Survive : List (List Char) → Prop
  | [] => True
  | w :: ws =>
    (∃ c cs u, w = c :: cs ∧ Turns c u ∧ Unbroken (ws.flatMap capitalize) u cs) ∧ Survive ws

/-- The characters of a word in lower case. -/
def Letters (cs : List Char) : Prop := ∀ c ∈ cs, Small c ∧ isSeparator c = false

theorem Settled.letters {snake w : List Char} (h : Settled snake) (hw : w ∈ words snake) :
    Letters w := by
  intro c hc
  obtain ⟨hm, hne⟩ := mem_of_mem_words hw hc
  exact ⟨(h c hm).1, Bool.eq_false_iff.2 (mt (h c hm).2 hne)⟩

theorem Letters.not_mem {cs : List Char} (h : Letters cs) : '_' ∉ cs := by
  intro hm
  have hs := (h '_' hm).2
  rw [isSeparator_underscore] at hs
  cases hs

theorem Letters.concat {cs : List Char} {c : Char} (h : Letters cs)
    (hc : Small c ∧ isSeparator c = false) : Letters (cs ++ [c]) :=
  List.forall_mem_append.2 ⟨h, List.forall_mem_singleton.2 hc⟩

section
variable {cur cs rest : List Char} {prev c u : Char} {w : List Char} {ws : List (List Char)}

/-- A character that follows `cur` belongs to the same word or starts the next one. -/
theorem words_snakeFrom_cons (hm : '_' ∉ cur) (hn : cur ≠ []) (hs : isSeparator u = false)
    (hl : lowerCase u = [c]) :
    words (cur ++ snakeFrom (.after prev) (u :: rest)) =
      if startsWord prev u rest.head? then cur :: words ([c] ++ snakeFrom (.after u) rest)
      else words (cur ++ [c] ++ snakeFrom (.after u) rest) := by
  rw [snakeFrom, if_neg (Bool.eq_false_iff.1 hs), hl, Joint.breaks]
  by_cases hb : startsWord prev u rest.head? = true
  · rw [if_pos hb, if_pos hb]
    exact words_append_cons hm hn
  · rw [if_neg hb, if_neg hb, List.nil_append, List.append_assoc]

/-- Inside a word nothing may start a word: what is cut off would be too short. -/
theorem joined_letters_iff {later : Prop}
    (hend : ∀ cur prev, Letters cur → cur ≠ [] →
      (Joined (cur :: ws) (words (cur ++ snakeFrom (.after prev) rest)) ↔ later))
    (hcs : Letters cs) (hcur : Letters cur) (hn : cur ≠ []) :
    Joined ((cur ++ cs) :: ws) (words (cur ++ snakeFrom (.after prev) (cs ++ rest))) ↔
      Unbroken rest prev cs ∧ later := by
  induction cs generalizing cur prev with
  | nil =>
    rw [List.append_nil, List.nil_append, hend cur prev hcur hn]
    simp [Unbroken]
  | cons c cs ih =>
    obtain ⟨hc, hcs⟩ := List.forall_mem_cons.1 hcs
    rw [List.cons_append, words_snakeFrom_cons hcur.not_mem hn hc.2 hc.1, Unbroken]
    by_cases hb : startsWord prev c (cs ++ rest).head? = true
    · rw [if_pos hb]
      refine iff_of_false (fun h => ?_) fun h => Bool.eq_false_iff.1 h.1.1 hb
      have := h.length_head_le
      rw [List.length_append, List.length_cons] at this
      omega
    · rw [if_neg hb, List.append_cons, ih hcs (hcur.concat hc) (by simp), and_assoc,
        and_iff_right (Bool.eq_false_iff.2 hb)]

theorem Turns.isSeparator (h : Turns c u) (hc : Small c ∧ isSeparator c = false) :
    isSeparator u = false :=
  hc.1.capitalizes.apart hc.2 u (by simp [h.1])

theorem survive_cons_iff (h : Turns c u) :
    Survive ((c :: cs) :: ws) ↔ Unbroken (ws.flatMap capitalize) u cs ∧ Survive ws := by
  rw [Survive]
  refine and_congr_left' ⟨?_, fun hcs => ⟨c, cs, u, rfl, h, hcs⟩⟩
  rintro ⟨_, _, u', he, h', hcs⟩
  cases he
  obtain rfl : u' = u := List.singleton_inj.1 (h'.1.symm.trans h.1)
  exact hcs

/-- Words whose first characters come back are read one after the other. -/
theorem joined_words_iff (hws : ∀ w ∈ ws, Returns w ∧ Letters w) (hcs : Letters cs)
    (hcur : Letters cur) (hn : cur ≠ []) :
    Joined ((cur ++ cs) :: ws)
        (words (cur ++ snakeFrom (.after prev) (cs ++ ws.flatMap capitalize))) ↔
      Unbroken (ws.flatMap capitalize) prev cs ∧ Survive ws := by
  induction ws generalizing cur prev cs with
  | nil =>
    refine joined_letters_iff (fun cur prev hcur hn => ?_) hcs hcur hn
    rw [List.flatMap_nil, snakeFrom, List.append_nil, words_of_not_mem hcur.not_mem hn]
    exact iff_of_true (.refl _) trivial
  | cons w ws ih =>
    obtain ⟨⟨⟨c, hw, u, hu⟩, hletters⟩, hrest⟩ := List.forall_mem_cons.1 hws
    obtain ⟨ds, rfl⟩ := List.head?_eq_some_iff.1 hw
    obtain ⟨hc, hds⟩ := List.forall_mem_cons.1 hletters
    have hcap : ((c :: ds) :: ws).flatMap capitalize = u :: (ds ++ ws.flatMap capitalize) := by
      simp [capitalize, hu.1]
    refine joined_letters_iff (fun cur prev hcur hn => ?_) hcs hcur hn
    have hmore : Letters (cur ++ [c]) := hcur.concat hc
    rw [hcap, words_snakeFrom_cons hcur.not_mem hn (hu.isSeparator hc) hu.2, survive_cons_iff hu]
    split
    next =>
      -- the next word starts here, as it should
      rw [Joined.cons_iff (by simp)]
      exact ih hrest hds (List.forall_mem_singleton.2 hc) (by simp)
    next =>
      -- it is joined to the one before
      obtain ⟨more, others, hwords⟩ := exists_words_append hmore.not_mem (by simp)
        (snakeFrom (.after u) (ds ++ ws.flatMap capitalize))
      rw [hwords, Joined.join_iff (by simp), ← hwords, List.append_cons]
      exact ih hrest hds hmore (by simp)

theorem Survive.returns (h : Survive ws) : ∀ w ∈ ws, Returns w := by
  induction ws with
  | nil => exact fun w hw => absurd hw List.not_mem_nil
  | cons w ws ih =>
    obtain ⟨⟨c, cs, u, rfl, hu, -⟩, hws⟩ := h
    exact List.forall_mem_cons.2 ⟨⟨c, rfl, u, hu⟩, ih hws⟩

/-- Read again, a capital form has at least one character. -/
theorem exists_lowerCase_upperCase (hc : Small c) :
    ∃ l ls, (upperCase c).flatMap lowerCase = l :: ls ∧
      (ls = [] → ∃ u, upperCase c = [u] ∧ lowerCase u = [l]) := by
  obtain ⟨u, us, hu, l, hl, -⟩ := hc.capitalizes.head
  refine ⟨l, us.flatMap lowerCase, by rw [hu, List.flatMap_cons, hl]; rfl, fun hus => ?_⟩
  cases us with
  | nil => exact ⟨u, hu, hl⟩
  | cons v us =>
    rw [List.flatMap_cons, List.append_eq_nil_iff] at hus
    exact absurd hus.1 (lowerCase_ne_nil v)

theorem Letters.flatMap_lowerCase (h : Letters cs) : cs.flatMap lowerCase = cs := by
  induction cs with
  | nil => rfl
  | cons c cs ih =>
    obtain ⟨hc, hcs⟩ := List.forall_mem_cons.1 h
    have hl : lowerCase c = [c] := hc.1
    rw [List.flatMap_cons, hl, ih hcs]
    rfl

/-- Capitalized words that are read with the same letters have come back. -/
theorem returns_of_flatten_eq (hn : ∀ w ∈ ws, w ≠ [] ∧ Letters w) :
    ws.flatten.length ≤ ((ws.flatMap capitalize).flatMap lowerCase).length ∧
      ((ws.flatMap capitalize).flatMap lowerCase = ws.flatten → ∀ w ∈ ws, Returns w) := by
  induction ws with
  | nil => exact ⟨Nat.le_refl _, fun _ w hw => absurd hw List.not_mem_nil⟩
  | cons w ws ih =>
    obtain ⟨⟨hw, hletters⟩, hrest⟩ := List.forall_mem_cons.1 hn
    obtain ⟨c, cs, rfl⟩ := List.exists_cons_of_ne_nil hw
    obtain ⟨hc, hcs⟩ := List.forall_mem_cons.1 hletters
    obtain ⟨hle, ih⟩ := ih hrest
    obtain ⟨l, ls, hl, hreturns⟩ := exists_lowerCase_upperCase hc.1
    have hread : (((c :: cs) :: ws).flatMap capitalize).flatMap lowerCase =
        l :: (ls ++ (cs ++ (ws.flatMap capitalize).flatMap lowerCase)) := by
      simp only [List.flatMap_cons, capitalize, List.flatMap_append, hl,
        Letters.flatMap_lowerCase hcs, List.cons_append, List.append_assoc]
    rw [hread, List.flatten_cons]
    simp only [List.cons_append, List.length_cons, List.length_append, List.cons.injEq]
    refine ⟨by omega, ?_⟩
    rintro ⟨rfl, he⟩
    have hlen := congrArg List.length he
    simp only [List.length_append] at hlen
    obtain rfl : ls = [] := List.length_eq_zero_iff.1 (by omega)
    exact List.forall_mem_cons.2
      ⟨⟨l, rfl, hreturns rfl⟩, ih (List.append_cancel_left he)⟩

theorem filter_snakeFrom (ha : ∀ c ∈ cs, isSeparator c = false) (j : Joint) :
    (snakeFrom j cs).filter (· != '_') = cs.flatMap lowerCase := by
  induction cs generalizing j with
  | nil => rfl
  | cons c cs ih =>
    obtain ⟨hc, ha⟩ := List.forall_mem_cons.1 ha
    have hl : (lowerCase c).filter (· != '_') = lowerCase c := by
      refine List.filter_eq_self.2 fun d hd => bne_iff_ne.2 ?_
      rintro rfl
      exact underscore_not_mem_lowerCase hc hd
    rw [snakeFrom, if_neg (Bool.eq_false_iff.1 hc), List.filter_append, List.filter_append, hl,
      ih ha, List.flatMap_cons]
    split <;> rfl

end

/-- **When a re-reading only joins words.** -/
theorem joined_resplit_iff {snake : List Char} (h : Settled snake) :
    Joined (words snake) (words (resplit snake)) ↔ Survive (words snake) := by
  have hword : ∀ w ∈ words snake, w ≠ [] ∧ Letters w := fun w hw =>
    ⟨ne_nil_of_mem_words hw, h.letters hw⟩
  by_cases hr : ∀ w ∈ words snake, Returns w
  · rw [resplit, snakeChars, capitalizeWords_eq]
    cases hws : words snake with
    | nil => exact iff_of_true .nil trivial
    | cons w ws =>
      rw [hws, List.forall_mem_cons] at hr hword
      obtain ⟨⟨c, hc, u, hu⟩, hr⟩ := hr
      obtain ⟨cs, rfl⟩ := List.head?_eq_some_iff.1 hc
      obtain ⟨⟨-, hletters⟩, hword⟩ := hword
      obtain ⟨hc, hcs⟩ := List.forall_mem_cons.1 hletters
      have hstart : snakeFrom .start (((c :: cs) :: ws).flatMap capitalize) =
          [c] ++ snakeFrom (.after u) (cs ++ ws.flatMap capitalize) := by
        simp [capitalize, hu.1, hu.2, snakeFrom, hu.isSeparator hc, Joint.breaks]
      rw [hstart, survive_cons_iff hu]
      exact joined_words_iff (fun w hw => ⟨hr w hw, (hword w hw).2⟩) hcs
        (List.forall_mem_singleton.2 hc) (by simp)
  · refine iff_of_false (fun hj => hr ?_) fun hs => hr hs.returns
    refine (returns_of_flatten_eq hword).2 ?_
    rw [← capitalizeWords_eq, ← hj.flatten_eq, flatten_words, resplit, snakeChars,
      filter_snakeFrom (capitalized_capitalizeWords h).apart]

/-! ### Words without capitals -/

/-- The first character of the word comes back, and the word has no capitals, which
    here are those without a small form. -/
def Steady (w : List Char) : Prop := Returns w ∧ ∀ c ∈ w, isUppercase c = false

/-- Only a capital starts a word. -/
theorem unbroken_of_not_isUppercase {rest cs : List Char} (h : ∀ c ∈ cs, isUppercase c = false)
    (prev : Char) : Unbroken rest prev cs := by
  induction cs generalizing prev with
  | nil => trivial
  | cons c cs ih =>
    obtain ⟨hc, hcs⟩ := List.forall_mem_cons.1 h
    exact ⟨by simp [startsWord, hc], ih hcs c⟩

theorem survive_of_steady {ws : List (List Char)} (h : ∀ w ∈ ws, Steady w) : Survive ws := by
  induction ws with
  | nil => trivial
  | cons w ws ih =>
    obtain ⟨⟨⟨c, hc, u, hu⟩, hsmall⟩, hws⟩ := List.forall_mem_cons.1 h
    obtain ⟨cs, rfl⟩ := List.head?_eq_some_iff.1 hc
    have hcs : ∀ d ∈ cs, isUppercase d = false := (List.forall_mem_cons.1 hsmall).2
    exact (survive_cons_iff hu).2 ⟨unbroken_of_not_isUppercase hcs u, ih hws⟩

/-- Joined words have the letters and the first characters of their parts. -/
theorem Joined.steady {ws vs : List (List Char)} (h : Joined ws vs) (hn : ∀ w ∈ ws, w ≠ [])
    (hws : ∀ w ∈ ws, Steady w) : ∀ v ∈ vs, Steady v := by
  refine fun v hv => ⟨?_, fun c hc => ?_⟩
  · obtain ⟨w, hw, he⟩ := h.exists_head hn v hv
    rw [Returns, he]
    exact (hws w hw).1
  · have hm : c ∈ vs.flatten := List.mem_flatten_of_mem hv hc
    rw [h.flatten_eq] at hm
    obtain ⟨w, hw, hc⟩ := List.mem_flatten.1 hm
    exact (hws w hw).2 c hc

/-! ## Three re-readings -/

/-- A character starts a word also behind the small form of the one before it, and
    before small forms. -/
theorem startsWord_lowers {p p' c : Char} {rest rest' : List Char}
    (hp : p' = p ∨ lowerCase p = [p']) (hr : Lowers rest rest')
    (h : startsWord p c rest.head? = true) : startsWord p' c rest'.head? = true := by
  have hnext : rest.head?.any isLowercase = true → rest'.head?.any isLowercase = true := by
    cases hr with
    | nil => exact id
    | @cons d d' _ _ hd _ =>
      simp only [List.head?_cons, Option.any_some]
      intro hl
      rcases hd with rfl | hd
      · exact hl
      · obtain rfl : d = d' := List.singleton_inj.1 ((small_of_letter (.inl hl)).symm.trans hd)
        exact hl
  simp only [startsWord, Bool.and_eq_true, Bool.or_eq_true] at h ⊢
  obtain ⟨hc, hbefore⟩ := h
  refine ⟨hc, ?_⟩
  by_cases he : p' = p
  · subst he
    exact hbefore.imp_right (And.imp_right hnext)
  · have hp := hp.resolve_left he
    left
    rcases hbefore with hletter | ⟨-, -⟩
    · exact absurd (List.singleton_inj.1 ((small_of_letter hletter).symm.trans hp)).symm he
    · exact .inl ((eq_or_isLowercase hp).resolve_left he)

theorem capitalizeFrom_after_cons {c : Char} (hc : Small c ∨ Stands c)
    (hs : isSeparator c = false) (p : Char) (rest : List Char) :
    capitalizeFrom false (snakeFrom (.after p) (c :: rest)) =
      (if startsWord p c rest.head? = true then [c] else lowerCase c) ++
        capitalizeFrom false (snakeFrom (.after c) rest) :=
  capitalizeFrom_snakeFrom_cons (j := .after p) hc hs nofun

/-- What is capitalized the second time stays: where a word started, one starts
    again, and all other characters are small. -/
theorem capitalizeFrom_reread {cs : List Char} (hf : ∀ c ∈ cs, Small c ∨ Stands c)
    (ha : ∀ c ∈ cs, isSeparator c = false) {p p' : Char} (hp : p' = p ∨ lowerCase p = [p']) :
    capitalizeFrom false
        (snakeFrom (.after p') (capitalizeFrom false (snakeFrom (.after p) cs))) =
      capitalizeFrom false (snakeFrom (.after p) cs) := by
  induction cs generalizing p p' with
  | nil => rfl
  | cons c rest ih =>
    obtain ⟨hc, hf⟩ := List.forall_mem_cons.1 hf
    obtain ⟨hs, ha⟩ := List.forall_mem_cons.1 ha
    have hlowers : Lowers rest (capitalizeFrom false (snakeFrom (.after c) rest)) :=
      lowers_capitalizeFrom hf ha (.after c) nofun
    rw [capitalizeFrom_after_cons hc hs]
    by_cases hb : startsWord p c rest.head? = true
    · rw [if_pos hb, List.singleton_append, capitalizeFrom_after_cons hc hs, ih hf ha (.inl rfl),
        if_pos (startsWord_lowers hp hlowers hb)]
      rfl
    · obtain ⟨l, hl⟩ := exists_lowerCase_eq hc
      have hm : l ∈ lowerCase c := by simp [hl]
      have hsmall : lowerCase l = [l] := small_of_mem_lowerCase hm
      rw [if_neg hb, hl, List.singleton_append,
        capitalizeFrom_after_cons (.inl hsmall) (isSeparator_of_mem_lowerCase hs hm),
        ih hf ha (.inr hl), hsmall, ite_self]
      rfl

theorem Capitalized.reread {cs : List Char} (h : Capitalized cs) :
    capitalizeWords (snakeChars (capitalizeWords (snakeChars cs))) =
      capitalizeWords (snakeChars cs) := by
  cases cs with
  | nil => rfl
  | cons c rest =>
    have hc := h.head c rfl
    obtain ⟨hs, ha⟩ := List.forall_mem_cons.1 h.apart
    have hstart : ∀ rest, capitalizeWords (snakeChars (c :: rest)) =
        c :: capitalizeFrom false (snakeFrom (.after c) rest) := fun rest =>
      capitalizeFrom_snakeFrom_cons (j := .start) (.inr hc) hs fun _ => hc
    rw [hstart, hstart,
      capitalizeFrom_reread (List.forall_mem_cons.1 h.forms).2 ha (.inl rfl)]

theorem capitalizeWords_resplit {snake : List Char} (h : Settled snake) :
    capitalizeWords (resplit (resplit snake)) = capitalizeWords (resplit snake) :=
  (capitalized_capitalizeWords h).reread

/-- **The third re-reading changes nothing.** -/
theorem settles_three {snake : List Char} (h : Settled snake) :
    ∃ passes ≤ 3, ∃ settled, Settles snake passes settled := by
  have hthird : resplit (resplit (resplit snake)) = resplit (resplit snake) :=
    congrArg snakeChars (capitalizeWords_resplit h)
  by_cases h₁ : resplit snake = snake
  · exact ⟨1, by omega, _, .stays h₁⟩
  · by_cases h₂ : resplit (resplit snake) = resplit snake
    · exact ⟨2, by omega, _, .again h₁ (.stays h₂)⟩
    · exact ⟨3, by omega, _, .again h₁ (.again h₂ (.stays hthird))⟩

/-! ## Fewer and fewer words -/

/-- A text that was read is written from its words. -/
theorem intercalate_words_snakeFrom {word cs : List Char} (hm : '_' ∉ word) (hn : word ≠ [])
    (j : Joint) :
    ['_'].intercalate (words (word ++ snakeFrom j cs)) = word ++ snakeFrom j cs := by
  induction cs generalizing word j with
  | nil =>
    rw [snakeFrom, List.append_nil, words_of_not_mem hm hn]
    simp
  | cons c rest ih =>
    rw [snakeFrom]
    by_cases hs : isSeparator c = true
    · rw [if_pos hs]
      exact ih hm hn _
    · have hl := underscore_not_mem_lowerCase (Bool.eq_false_iff.2 hs)
      rw [if_neg hs]
      by_cases hb : j.breaks c rest.head? = true
      · obtain ⟨more, others, hw⟩ := exists_words_append hl (lowerCase_ne_nil c)
          (snakeFrom (.after c) rest)
        have := ih hl (lowerCase_ne_nil c) (.after c)
        rw [if_pos hb, List.append_assoc, List.singleton_append, words_append_cons hm hn]
        rw [hw] at this ⊢
        rw [List.intercalate_cons_cons, this]
        simp
      · rw [if_neg hb, List.nil_append, ← List.append_assoc]
        exact ih (by simp [hm, hl]) (by simp [hn]) _

theorem intercalate_words_snakeChars (cs : List Char) :
    ['_'].intercalate (words (snakeChars cs)) = snakeChars cs := by
  induction cs with
  | nil => rfl
  | cons c rest ih =>
    rw [snakeChars, snakeFrom]
    by_cases hs : isSeparator c = true
    · rw [if_pos hs]
      exact ih
    · have hl := underscore_not_mem_lowerCase (Bool.eq_false_iff.2 hs)
      rw [if_neg hs]
      exact intercalate_words_snakeFrom hl (lowerCase_ne_nil c) (.after c)

theorem snakeChars_eq_of_words {as bs : List Char}
    (h : words (snakeChars as) = words (snakeChars bs)) : snakeChars as = snakeChars bs := by
  rw [← intercalate_words_snakeChars as, h, intercalate_words_snakeChars]

/-- **While words are only joined, there are no more passes than words**: each pass
    but the last leaves fewer. -/
theorem Settles.le_length {snake settled : List Char} {passes : Nat}
    (h : Settles snake passes settled) (hsnake : ∃ cs, snake = snakeChars cs)
    (hj : ∀ k, Joined (words (resplit^[k] snake)) (words (resplit^[k + 1] snake))) :
    passes ≤ max 1 (words snake).length := by
  induction h with
  | stays => exact Nat.le_max_left ..
  | @again snake settled passes hne _ ih =>
    obtain ⟨cs, rfl⟩ := hsnake
    have ih := ih ⟨_, rfl⟩ fun k => hj (k + 1)
    have hfirst : Joined (words (snakeChars cs)) (words (resplit (snakeChars cs))) := hj 0
    rcases hfirst.eq_or_length_lt with he | ⟨hpos, hlt⟩
    · exact absurd (snakeChars_eq_of_words he) hne
    · omega

/-- The words of a text after `k` re-readings. -/
def wordsAfter (s : String) (k : Nat) : List (List Char) :=
  words (resplit^[k] (snakeChars s.toList))

theorem settled_iterate_resplit (cs : List Char) (k : Nat) :
    Settled (resplit^[k] (snakeChars cs)) := by
  cases k with
  | zero => exact settled_snakeChars cs
  | succ k =>
    rw [Function.iterate_succ_apply']
    exact settled_snakeChars _

theorem joined_wordsAfter_iff (s : String) (k : Nat) :
    Joined (wordsAfter s k) (wordsAfter s (k + 1)) ↔ Survive (wordsAfter s k) := by
  rw [wordsAfter, wordsAfter, Function.iterate_succ_apply']
  exact joined_resplit_iff (settled_iterate_resplit s.toList k)

/-- What is steady at first is steady in every pass. -/
theorem steady_wordsAfter {s : String} (h : ∀ w ∈ wordsAfter s 0, Steady w) (k : Nat) :
    ∀ w ∈ wordsAfter s k, Steady w := by
  induction k with
  | zero => exact h
  | succ k ih =>
    have hj := (joined_wordsAfter_iff s k).2 (survive_of_steady ih)
    exact hj.steady (fun w => ne_nil_of_mem_words) ih

/-- **What the re-readings of a text do.**  One only joins words exactly if they
    survive it.  Three are always enough, and no more than there are words if none
    does anything else.  Without capitals that have no small form, this is so
    exactly if the first character of each word comes back from its capital form. -/
theorem resplit_exact (s : String) :
    (∀ k, Joined (wordsAfter s k) (wordsAfter s (k + 1)) ↔ Survive (wordsAfter s k)) ∧
    (∃ passes ≤ 3, Settles (snakeChars s.toList) passes (settledChars s.toList) ∧
      ((∀ k, Joined (wordsAfter s k) (wordsAfter s (k + 1))) →
        passes ≤ max 1 (wordsAfter s 0).length)) ∧
    ((∀ c ∈ snakeChars s.toList, isUppercase c = false) →
      ((∀ k, Joined (wordsAfter s k) (wordsAfter s (k + 1))) ↔
        ∀ w ∈ wordsAfter s 0, Returns w)) := by
  refine ⟨joined_wordsAfter_iff s, ?_, fun hsmall => ⟨fun h => ?_, fun h k => ?_⟩⟩
  · obtain ⟨passes, hle, settled, hp⟩ := settles_three (settled_snakeChars s.toList)
    have hlimit := lt_settleLimit (snakeChars s.toList).length
    obtain rfl : settledChars s.toList = settled := hp.settle_eq (by omega)
    exact ⟨passes, hle, hp, fun h => hp.le_length ⟨_, rfl⟩ h⟩
  · exact ((joined_wordsAfter_iff s 0).1 (h 0)).returns
  · refine (joined_wordsAfter_iff s k).2 (survive_of_steady (steady_wordsAfter ?_ k))
    exact fun w hw => ⟨h w hw, fun c hc => hsmall c (mem_of_mem_words hw hc).1⟩

/-- The ligature `ﬁ` does not come back: its word falls apart. -/
example : wordsAfter "ﬁx" 0 = [['ﬁ', 'x']] ∧ wordsAfter "ﬁx" 1 = [['f'], ['i', 'x']] := by
  decide +kernel

end SchemaLoom.Text
