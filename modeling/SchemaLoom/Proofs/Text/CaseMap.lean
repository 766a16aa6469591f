/-
  Laws of the case mappings.

  A character that no table lists maps to itself, so a law that holds of such
  characters is checked for the listed ones (`forall_mapCase`).  These are some
  thousands, and for the check the tables are cut in two again and again
  (`RunIndex`).

  * `small_of_mem_lowerCase`: a small form is its own small form;
  * `small_of_letter`, `eq_or_isLowercase`: a small letter or a digit stays, and the
    small form of another character is a small letter;
  * `Small.capitalizes`: what a small form is capitalized to.
-/
import Mathlib.Data.List.Basic
import SchemaLoom.Text.Casing

namespace SchemaLoom.Text

/-! ## Listed characters -/

/-- The code points of a run. -/
def CodeRun.points (r : CodeRun) : List Nat :=
  (List.range ((r.last - r.first) / r.stride + 1)).map fun i => r.first + r.stride * i

theorem CodeRun.mem_points {r : CodeRun} {n : Nat} (h : r.contains n = true) : n ∈ r.points := by
  simp only [contains, Bool.and_eq_true, decide_eq_true_eq, beq_iff_eq] at h
  obtain ⟨⟨hf, hl⟩, hm⟩ := h
  refine List.mem_map.2 ⟨(n - r.first) / r.stride, List.mem_range.2 ?_, ?_⟩
  · exact Nat.lt_succ_of_le (Nat.div_le_div_right (Nat.sub_le_sub_right hl r.first))
  · have hd := Nat.div_add_mod (n - r.first) r.stride
    omega

/-- The code points that the tables of a case mapping list. -/
def listed (runs : List CaseRun) (expansions : List (Nat × List Char)) : List Nat :=
  (runs.flatMap fun r => r.points) ++ expansions.map Prod.fst

theorem mem_points_of_shiftIn {runs : List CaseRun} {n m : Nat} (h : shiftIn runs n = some m) :
    n ∈ runs.flatMap fun r => r.points := by
  induction runs with
  | nil => cases h
  | cons r rs ih =>
    rw [List.flatMap_cons, List.mem_append]
    rw [shiftIn] at h
    split at h
    · cases h
    · split at h
      next hc => exact .inl (CodeRun.mem_points hc)
      · exact .inr (ih h)

theorem mem_of_expansionIn {expansions : List (Nat × List Char)} {n : Nat} {cs : List Char}
    (h : expansionIn expansions n = some cs) : n ∈ expansions.map Prod.fst := by
  induction expansions with
  | nil => cases h
  | cons e rest ih =>
    rw [List.map_cons, List.mem_cons]
    rw [expansionIn] at h
    split at h
    · cases h
    · split at h
      next he => exact .inl he
      · exact .inr (ih h)

/-- A character that is not listed maps to itself. -/
theorem mapCase_of_not_mem {runs : List CaseRun} {expansions : List (Nat × List Char)} {c : Char}
    (h : c.toNat ∉ listed runs expansions) : mapCase runs expansions c = [c] := by
  rw [listed, List.mem_append, not_or] at h
  rw [mapCase]
  cases hs : shiftIn runs c.toNat with
  | some n => exact absurd (mem_points_of_shiftIn hs) h.1
  | none =>
    cases he : expansionIn expansions c.toNat with
    | some cs => exact absurd (mem_of_expansionIn he) h.2
    | none => rfl

/-- A law of a case mapping holds if it holds of the characters that map to
    themselves and of the listed ones. -/
theorem forall_mapCase (runs : List CaseRun) (expansions : List (Nat × List Char))
    {law : Char → Bool} (hself : ∀ c, mapCase runs expansions c = [c] → law c = true)
    (hlisted : ((listed runs expansions).all fun n => law (Char.ofNat n)) = true) (c : Char) :
    law c = true := by
  by_cases h : c.toNat ∈ listed runs expansions
  · have hc := List.all_eq_true.1 hlisted c.toNat h
    rwa [Char.ofNat_toNat] at hc
  · exact hself c (mapCase_of_not_mem h)

/-! ## Tables that are cut -/

/-- Where a run moves a code point, if it holds it. -/
def CaseRun.move (n : Nat) (r : CaseRun) : Option Nat :=
  bif Nat.ble r.first n && Nat.ble n r.last && Nat.beq ((n - r.first) % r.stride) 0 then
    some ((n : Int) + r.shift).toNat
  else none

/-- The first run ends before the second begins. -/
def CaseRun.Before (r s : CaseRun) : Prop := r.first < s.first ∧ r.last < s.first

instance (r s : CaseRun) : Decidable (r.Before s) := inferInstanceAs (Decidable (_ ∧ _))

instance : IsTrans CaseRun CaseRun.Before where
  trans _ _ _ h k := ⟨Nat.lt_trans h.1 k.1, Nat.lt_trans h.2 k.1⟩

/-- A table of runs that is cut at code points. -/
inductive RunIndex where
  | runs (rs : List CaseRun)
  | cut (place : Nat) (below above : RunIndex)

namespace RunIndex

/-- Where the table moves a code point. -/
def find : RunIndex → Nat → Option Nat
  | runs rs, n => rs.findSome? (CaseRun.move n)
  | cut place below above, n => bif Nat.ble place n then above.find n else below.find n

/-- The index of a table, cut at most `depth` times on the way to a run. -/
def ofRuns : Nat → List CaseRun → RunIndex
  | 0, rs => runs rs
  | depth + 1, rs =>
    match rs.drop (rs.length / 2) with
    | [] => runs rs
    | r :: above =>
      cut r.first (ofRuns depth (rs.take (rs.length / 2))) (ofRuns depth (r :: above))

end RunIndex

section
variable {r : CaseRun} {rs : List CaseRun} {n : Nat}

theorem CaseRun.move_eq (r : CaseRun) (n : Nat) :
    r.move n = if r.contains n then some ((n : Int) + r.shift).toNat else none := by
  have hc : r.contains n =
      (Nat.ble r.first n && Nat.ble n r.last && Nat.beq ((n - r.first) % r.stride) 0) := by
    rw [Bool.eq_iff_iff]
    simp [CodeRun.contains]
  rw [move, ← hc]
  cases r.contains n <;> rfl

theorem CaseRun.move_eq_none (h : n < r.first ∨ r.last < n) : r.move n = none := by
  rw [move_eq, if_neg]
  simp only [CodeRun.contains, Bool.and_eq_true, decide_eq_true_eq]
  omega

/-- In a table whose runs are in order, a look-up may go on to the end. -/
theorem shiftIn_eq (h : rs.Pairwise CaseRun.Before) :
    shiftIn rs n = rs.findSome? (CaseRun.move n) := by
  induction rs with
  | nil => rfl
  | cons r rs ih =>
    rw [List.pairwise_cons] at h
    rw [shiftIn, List.findSome?_cons, CaseRun.move_eq, ih h.2]
    by_cases hn : n < r.first
    · have hc : r.move n = none := CaseRun.move_eq_none (.inl hn)
      rw [CaseRun.move_eq] at hc
      rw [if_pos hn, hc]
      refine (List.findSome?_eq_none_iff.2 fun s hs => ?_).symm
      exact CaseRun.move_eq_none (.inl (Nat.lt_trans hn (h.1 s hs).1))
    · rw [if_neg hn]
      cases r.contains n <;> rfl

theorem RunIndex.find_ofRuns (h : rs.Pairwise CaseRun.Before) (depth : Nat) :
    (ofRuns depth rs).find n = rs.findSome? (CaseRun.move n) := by
  induction depth generalizing rs with
  | zero => rfl
  | succ depth ih =>
    have hs : rs.findSome? (CaseRun.move n) =
        ((rs.take (rs.length / 2)).findSome? (CaseRun.move n)).or
          ((rs.drop (rs.length / 2)).findSome? (CaseRun.move n)) := by
      rw [← List.findSome?_append, List.take_append_drop]
    have hb : ∀ r ∈ rs.take (rs.length / 2), ∀ s ∈ rs.drop (rs.length / 2), r.Before s := by
      rw [← List.take_append_drop (rs.length / 2) rs, List.pairwise_append] at h
      exact h.2.2
    have hd : (rs.drop (rs.length / 2)).Pairwise CaseRun.Before := h.sublist (List.drop_sublist _ _)
    rw [ofRuns]
    split
    · rfl
    next r above he =>
      rw [he] at hb hd hs
      rw [hs, find, ih (h.sublist (List.take_sublist _ _)), ih hd]
      by_cases hn : r.first ≤ n
      · rw [Nat.ble_eq_true_of_le hn, cond_true]
        have ht : (rs.take (rs.length / 2)).findSome? (CaseRun.move n) = none :=
          List.findSome?_eq_none_iff.2 fun s hs => CaseRun.move_eq_none
            (.inr (Nat.lt_of_lt_of_le (hb s hs r List.mem_cons_self).2 hn))
        rw [ht, Option.none_or]
      · have hd : (r :: above).findSome? (CaseRun.move n) = none :=
          List.findSome?_eq_none_iff.2 fun s hs => CaseRun.move_eq_none (.inl (by
            rcases List.mem_cons.1 hs with rfl | hs
            · exact Nat.lt_of_not_le hn
            · exact Nat.lt_trans (Nat.lt_of_not_le hn) ((List.pairwise_cons.1 hd).1 s hs).1))
        rw [hd, Option.or_none, Bool.eq_false_iff.2 (mt Nat.le_of_ble_eq_true hn), cond_false]

theorem find_ofRuns_eq_shiftIn (h : rs.IsChain CaseRun.Before) (depth : Nat) :
    (RunIndex.ofRuns depth rs).find n = shiftIn rs n := by
  rw [shiftIn_eq h.pairwise, RunIndex.find_ofRuns h.pairwise]

/-- A table of marked code points, as one that moves nothing. -/
theorem inRuns_eq (rs : List CodeRun) (n : Nat) :
    inRuns rs n = (shiftIn (rs.map fun r => ⟨r, 0⟩) n).isSome := by
  induction rs with
  | nil => rfl
  | cons r rs ih =>
    rw [inRuns, List.map_cons, shiftIn, ih]
    by_cases hn : n < r.first
    · rw [if_pos hn, if_pos hn]
      rfl
    · rw [if_neg hn, if_neg hn]
      cases r.contains n <;> rfl

end

/-- The lower-case images, by an index. -/
def lowerIndex : RunIndex := .ofRuns 8 lowerRuns

/-- The upper-case images, by an index. -/
def upperIndex : RunIndex := .ofRuns 8 upperRuns

/-- The capital letters, by an index. -/
def capitalIndex : RunIndex := .ofRuns 8 (uppercaseRuns.map fun r => ⟨r, 0⟩)

/-- The small letters, by an index. -/
def smallIndex : RunIndex := .ofRuns 8 (lowercaseRuns.map fun r => ⟨r, 0⟩)

/-- The blank characters, by an index. -/
def blankIndex : RunIndex := .ofRuns 4 (blankRuns.map fun r => ⟨r, 0⟩)

/-- The image of a character under a case mapping, by an index of its runs. -/
def RunIndex.image (index : RunIndex) (expansions : List (Nat × List Char)) (c : Char) :
    List Char :=
  match index.find c.toNat with
  | some n => [Char.ofNat n]
  | none => (expansionIn expansions c.toNat).getD [c]

theorem lowerIndex_image : lowerIndex.image lowerExpansions = lowerCase := by
  funext c
  have hs : lowerIndex.find c.toNat = shiftIn lowerRuns c.toNat :=
    find_ofRuns_eq_shiftIn (by decide +kernel) 8
  rw [RunIndex.image, hs]
  rfl

theorem upperIndex_image : upperIndex.image upperExpansions = upperCase := by
  funext c
  have hs : upperIndex.find c.toNat = shiftIn upperRuns c.toNat :=
    find_ofRuns_eq_shiftIn (by decide +kernel) 8
  rw [RunIndex.image, hs]
  rfl

theorem capitalIndex_find (c : Char) : (capitalIndex.find c.toNat).isSome = isUppercase c := by
  have hs : capitalIndex.find c.toNat = shiftIn (uppercaseRuns.map fun r => ⟨r, 0⟩) c.toNat :=
    find_ofRuns_eq_shiftIn (by decide +kernel) 8
  rw [hs, isUppercase, inRuns_eq]

theorem smallIndex_find (c : Char) : (smallIndex.find c.toNat).isSome = isLowercase c := by
  have hs : smallIndex.find c.toNat = shiftIn (lowercaseRuns.map fun r => ⟨r, 0⟩) c.toNat :=
    find_ofRuns_eq_shiftIn (by decide +kernel) 8
  rw [hs, isLowercase, inRuns_eq]

theorem blankIndex_find (c : Char) : (blankIndex.find c.toNat).isSome = isBlank c := by
  have hs : blankIndex.find c.toNat = shiftIn (blankRuns.map fun r => ⟨r, 0⟩) c.toNat :=
    find_ofRuns_eq_shiftIn (by decide +kernel) 4
  rw [hs, isBlank, inRuns_eq]

/-! ## Small forms -/

/-- The separators, by the index of the blank characters. -/
def apartByIndex (c : Char) : Bool :=
  Nat.beq c.toNat '_'.toNat || Nat.beq c.toNat '-'.toNat || (blankIndex.find c.toNat).isSome

theorem apartByIndex_eq : apartByIndex = isSeparator := by
  have hc : ∀ c d : Char, Nat.beq c.toNat d.toNat = (c == d) := by
    intro c d
    rw [Bool.eq_iff_iff, Nat.beq_eq, beq_iff_eq, Char.toNat_inj]
  funext c
  rw [apartByIndex, blankIndex_find, hc, hc, isSeparator]

/-- Whether a small form under the mapping `lower` stays, and no separator
    becomes one. -/
def lowersOnce (lower : Char → List Char) (apart : Char → Bool) (c : Char) : Bool :=
  !(lower c).isEmpty && (lower c).all fun d => lower d == [d] && (!apart d || apart c)

theorem lowersOnce_listed : ((listed lowerRuns lowerExpansions).all fun n =>
    lowersOnce (lowerIndex.image lowerExpansions) apartByIndex (Char.ofNat n)) = true := by
  decide +kernel

theorem lowersOnce_lowerCase (c : Char) : lowersOnce lowerCase isSeparator c = true := by
  refine forall_mapCase lowerRuns lowerExpansions (fun c hc => ?_) ?_ c
  · have hc : lowerCase c = [c] := hc
    simp [lowersOnce, hc]
  · rw [← lowerIndex_image, ← apartByIndex_eq]
    exact lowersOnce_listed

/-- Whether small letters and digits stay under the mapping `lower`, and the one
    small form of another character is a small letter. -/
def lowersToLetter (lower : Char → List Char) (small : Char → Bool) (c : Char) : Bool :=
  match lower c with
  | [l] => (small l && !small c && !c.isDigit) || l == c
  | _ => !small c && !c.isDigit

theorem lowersToLetter_listed : ((listed lowerRuns lowerExpansions).all fun n =>
    lowersToLetter (lowerIndex.image lowerExpansions)
      (fun c => (smallIndex.find c.toNat).isSome) (Char.ofNat n)) = true := by
  decide +kernel

theorem lowersToLetter_lowerCase (c : Char) : lowersToLetter lowerCase isLowercase c = true := by
  refine forall_mapCase lowerRuns lowerExpansions (fun c hc => ?_) ?_ c
  · have hc : lowerCase c = [c] := hc
    simp [lowersToLetter, hc]
  · rw [← lowerIndex_image, ← funext smallIndex_find]
    exact lowersToLetter_listed

/-- The character is its own small form. -/
def Small (c : Char) : Prop := lowerCase c = [c]

instance (c : Char) : Decidable (Small c) := inferInstanceAs (Decidable (_ = _))

section
variable {c d : Char}

theorem small_of_mem_lowerCase (h : d ∈ lowerCase c) : Small d := by
  have hl := lowersOnce_lowerCase c
  simp only [lowersOnce, Bool.and_eq_true, List.all_eq_true, beq_iff_eq] at hl
  exact (hl.2 d h).1

theorem isSeparator_of_mem_lowerCase (hc : isSeparator c = false) (h : d ∈ lowerCase c) :
    isSeparator d = false := by
  have hl := lowersOnce_lowerCase c
  simp only [lowersOnce, Bool.and_eq_true, List.all_eq_true] at hl
  simpa [hc] using (hl.2 d h).2

theorem lowerCase_ne_nil (c : Char) : lowerCase c ≠ [] := by
  have hl := lowersOnce_lowerCase c
  simp only [lowersOnce, Bool.and_eq_true, Bool.not_eq_true', List.isEmpty_eq_false_iff] at hl
  exact hl.1

/-- The one small form of a character is the character or a small letter. -/
theorem eq_or_isLowercase (h : lowerCase c = [d]) : d = c ∨ isLowercase d = true := by
  have hl := lowersToLetter_lowerCase c
  simp only [lowersToLetter, h, Bool.or_eq_true, beq_iff_eq, Bool.and_eq_true] at hl
  exact hl.symm.imp_right fun hl => hl.1.1

/-- Small letters and digits are their own small forms. -/
theorem small_of_letter (h : isLowercase c = true ∨ c.isDigit = true) : Small c := by
  have hl := lowersToLetter_lowerCase c
  rw [lowersToLetter] at hl
  split at hl
  next l hlow =>
    simp only [Bool.or_eq_true, beq_iff_eq, Bool.and_eq_true, Bool.not_eq_true'] at hl
    rcases hl with ⟨⟨-, hs⟩, hd⟩ | rfl
    · simp [hs, hd] at h
    · exact hlow
  · simp only [Bool.and_eq_true, Bool.not_eq_true'] at hl
    simp [hl.1, hl.2] at h

end

/-! ### Whole texts -/

theorem small_of_mem_lowerAfter {before cs : List Char} {d : Char}
    (h : d ∈ lowerAfter before cs) : Small d := by
  induction cs generalizing before with
  | nil => cases h
  | cons c rest ih =>
    rw [lowerAfter, List.mem_append] at h
    rcases h with h | h
    · split at h
      · obtain rfl | rfl : d = 'ς' ∨ d = 'σ' := by
          split at h
          · exact .inl (List.mem_singleton.1 h)
          · exact .inr (List.mem_singleton.1 h)
        · decide +kernel
        · decide +kernel
      · exact small_of_mem_lowerCase h
    · exact ih h

theorem lowerAfter_eq_self {before cs : List Char} (h : ∀ c ∈ cs, Small c) :
    lowerAfter before cs = cs := by
  induction cs generalizing before with
  | nil => rfl
  | cons c rest ih =>
    have hc : lowerCase c = [c] := h c List.mem_cons_self
    have hne : c ≠ 'Σ' := by
      rintro rfl
      exact absurd (h 'Σ' List.mem_cons_self) (by decide +kernel)
    rw [lowerAfter, if_neg hne, hc, ih fun d hd => h d (List.mem_cons_of_mem c hd)]
    rfl

/-- A text in lower case stays. -/
theorem lowerText_lowerText (s : String) : lowerText (lowerText s) = lowerText s := by
  rw [lowerText, lowerText, String.toList_ofList,
    lowerAfter_eq_self fun _ => small_of_mem_lowerAfter]

/-! ## Capitals of small characters -/

/-- The character is the capital of its small form. -/
def Stands (u : Char) : Prop := ∃ l, lowerCase u = [l] ∧ upperCase l = [u]

/-- Whether a character is the capital of its small form, under the mappings
    `lower` and `upper`. -/
def standsBy (lower upper : Char → List Char) (u : Char) : Bool :=
  match lower u with
  | [l] => upper l == [u]
  | _ => false

theorem standsBy_eq_true {u : Char} : standsBy lowerCase upperCase u = true ↔ Stands u := by
  rw [standsBy, Stands]
  split
  next l hl => simp [hl]
  next hl =>
    refine iff_of_false Bool.false_ne_true ?_
    rintro ⟨l, h, -⟩
    exact hl l h

/-- What the capital form of a small character is like. -/
structure Capitalizes (c : Char) : Prop where
  forms : ∀ u ∈ upperCase c, Small u ∨ Stands u
  apart : isSeparator c = false → ∀ u ∈ upperCase c, isSeparator u = false
  head : ∃ u us, upperCase c = u :: us ∧ Stands u
  length : (upperCase c).length ≤ 3
  /-- A capital without a small form is its own capital. -/
  capital : isUppercase c = true → upperCase c = [c]

/-- Whether a character is not small or has such a capital form, by an index of
    the tables. -/
def capitalizesBy (lower upper : Char → List Char) (capital apart : Char → Bool) (c : Char) :
    Bool :=
  lower c != [c] ||
    ((upper c).all fun u => (lower u == [u] || standsBy lower upper u) && (!apart u || apart c)) &&
      ((upper c).head?.any (standsBy lower upper)) && Nat.ble (upper c).length 3 &&
      (!capital c || upper c == [c])

theorem capitalizesBy_listed : ((listed upperRuns upperExpansions).all fun n =>
    capitalizesBy (lowerIndex.image lowerExpansions) (upperIndex.image upperExpansions)
      (fun c => (capitalIndex.find c.toNat).isSome) apartByIndex (Char.ofNat n)) = true := by
  decide +kernel

theorem capitalizesBy_upperCase (c : Char) :
    capitalizesBy lowerCase upperCase isUppercase isSeparator c = true := by
  refine forall_mapCase upperRuns upperExpansions (fun c hc => ?_) ?_ c
  · have hc : upperCase c = [c] := hc
    rw [capitalizesBy, Bool.or_eq_true]
    by_cases hl : lowerCase c = [c]
    · simp [hc, hl, standsBy]
    · exact .inl (by simpa using hl)
  · rw [← lowerIndex_image, ← upperIndex_image, ← apartByIndex_eq, ← funext capitalIndex_find]
    exact capitalizesBy_listed

theorem Small.capitalizes {c : Char} (hc : Small c) : Capitalizes c := by
  have h := capitalizesBy_upperCase c
  rw [Small] at hc
  simp only [capitalizesBy, hc, bne_self_eq_false, Bool.false_or, Bool.and_eq_true,
    List.all_eq_true, Bool.or_eq_true, beq_iff_eq, standsBy_eq_true, Bool.not_eq_true',
    Option.any_eq_true, List.head?_eq_some_iff, Nat.ble_eq] at h
  obtain ⟨⟨⟨hall, u, ⟨us, hu⟩, hs⟩, hl⟩, hcap⟩ := h
  refine ⟨fun u hu => (hall u hu).1, fun h u hu => ?_, ⟨u, us, hu, hs⟩, hl, fun h => ?_⟩
  · simpa [h] using (hall u hu).2
  · simpa [h] using hcap

end SchemaLoom.Text
