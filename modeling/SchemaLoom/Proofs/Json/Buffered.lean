/-
  Values at hand, and tagged records.

  The shapes of values at hand have the same laws as those of texts, so what is
  proved for every lawful decoder holds of the part of a tagged record that is
  read when all of it is there.

  * `Reader.takes_tagged`: a record whose tag comes first;
  * `Reader.Takes.within`: the part that is read in the end.
-/
import SchemaLoom.Json.Buffered
import SchemaLoom.Proofs.Json.Answers

namespace SchemaLoom.Json

namespace Buffered

variable {α σ : Type} {P : α → Prop} {I : σ → Prop}

/-! ## What is read -/

/-- The reader reads the value `v` as `a`. -/
def Takes (r : Buffered α) (v : Value) (a : α) : Prop := r v = .ok a

theorem takes_natural {n limit : Nat} (wanted : String) (hn : n ≤ limit) :
    Takes (natural limit wanted) (.nat n) n := by
  change Number.inRange limit wanted (.integer n) = .ok n
  rw [Number.inRange, if_pos (by omega), Int.toNat_natCast]

theorem Takes.optional {r : Buffered α} {v : Value} {a : α} (h : Takes r v a)
    (hv : v.shape ≠ .null) : Takes (optional r) v (some a) := by
  unfold Takes Buffered.optional
  split
  next => exact absurd rfl hv
  next => exact map_eq_ok h

theorem Takes.list {item : Buffered α} {vs : List Value} {as : List α}
    (h : List.Forall₂ (Takes item) vs as) : Takes (list item) (.array vs) as := by
  refine mapM_eq_ok.2 ?_
  induction h with
  | nil => rfl
  | cons hv _ ih => rw [List.map_cons, List.map_cons, hv, ih]

theorem recordMembers_eq {all fields : List (Field Buffered σ)} {members : List (String × Value)}
    {s t : σ} {seen : List String} (h : Fills Takes fields members s t)
    (ha : Awaits all fields seen) : recordMembers all members seen s = .ok t := by
  induction h generalizing seen with
  | done => rw [recordMembers, ha.missingField?_eq]
  | given hread _ ih =>
    simp only [recordMembers, ha.find?_eq, ha.contains_eq, Bool.false_eq_true, if_false]
    exact bind_eq_ok.2 ⟨_, hread, ih ha.given⟩
  | absent hp _ ih => exact ih (ha.absent hp)

/-! ## What is answered -/

/-- What the reader answers with has the property, whatever the value. -/
def Answers (P : α → Prop) (r : Buffered α) : Prop := ∀ v a, r v = .ok a → P a

theorem answers_natural (limit : Nat) (wanted : String) :
    Answers (· ≤ limit) (natural limit wanted) := by
  intro v n h
  unfold natural at h
  split at h
  · exact Number.le_of_inRange h
  · cases h

theorem Answers.optional {item : Buffered α} (h : Answers P item) :
    Answers (fun o => ∀ a ∈ o, P a) (optional item) := by
  intro v o ho
  unfold Buffered.optional at ho
  split at ho
  · cases ho
    nofun
  · obtain ⟨a, ha, rfl⟩ := map_eq_ok_iff.1 ho
    rintro _ ⟨⟩
    exact h v a ha

theorem Answers.list {item : Buffered α} (h : Answers P item) :
    Answers (fun as => ∀ a ∈ as, P a) (list item) := by
  intro v as has a ha
  unfold Buffered.list at has
  split at has
  next vs =>
    obtain ⟨w, -, hw⟩ := exists_of_mem_mapM_eq_ok has ha
    exact h w a hw
  next => cases has

section
variable {fields : List (Field Buffered σ)} (hf : ∀ f ∈ fields, ∀ s, I s → Answers I (f.read s))
include hf

theorem answers_recordMembers {members : List (String × Value)} {seen : List String} {s t : σ}
    (hs : I s) (h : recordMembers fields members seen s = .ok t) : I t := by
  induction members generalizing seen s with
  | nil =>
    rw [recordMembers] at h
    split at h
    · cases h
    · cases h
      exact hs
  | cons m members ih =>
    rw [recordMembers] at h
    split at h
    · exact ih hs h
    next f hfound =>
      split at h
      · cases h
      · obtain ⟨s', hread, h⟩ := bind_eq_ok.1 h
        exact ih (hf f (List.mem_of_find?_eq_some hfound) s hs m.2 s' hread) h

theorem answers_recordItems {wanted : String} {count taken : Nat} {vs : List Value} {s t : σ}
    (hs : I s) (h : recordItems wanted count fields taken vs s = .ok t) : I t := by
  induction fields generalizing taken vs s with
  | nil =>
    cases vs with
    | nil =>
      cases h
      exact hs
    | cons v vs => cases h
  | cons f fields ih =>
    obtain ⟨hread, hf⟩ := List.forall_mem_cons.1 hf
    cases vs with
    | nil =>
      rw [recordItems] at h
      split at h
      · exact ih hf hs h
      · cases h
    | cons v vs =>
      obtain ⟨s', hs', h⟩ := bind_eq_ok.1 h
      exact ih hf (hread s hs v s' hs') h

theorem Answers.record (wanted : String) {start : σ} (hs : I start) :
    Answers I (record wanted fields start) := by
  intro v t h
  unfold Buffered.record at h
  split at h
  · exact answers_recordMembers hf hs h
  · exact answers_recordItems hf hs h
  · cases h

end

instance : LawfulDecoder Buffered where
  Takes := fun _ => Takes
  takes_bind := fun h hf => bind_eq_ok.2 ⟨_, h, congrFun hf _⟩
  takes_value := fun _ => rfl
  takes_string := fun _ => rfl
  takes_boolean := fun _ => rfl
  takes_natural := fun wanted hn _ => takes_natural wanted hn
  takes_optional := Takes.optional
  takes_items := Takes.list
  takes_record := fun hn h => recordMembers_eq h (.start hn)
  Answers := Answers
  answers_true := fun _ _ _ _ => trivial
  answers_pure := fun h _ _ ha => Except.ok.inj ha ▸ h
  answers_bind := fun hr hf v a h => by
    obtain ⟨b, hb, h⟩ := bind_eq_ok.1 h
    exact hf b (hr v b hb) v a h
  answers_refuse := fun _ _ _ => nofun
  answers_natural := answers_natural
  answers_optional := Answers.optional
  answers_list := Answers.list
  answers_record := fun hf wanted _ hs => Answers.record hf wanted hs

end Buffered

namespace Reader

variable {α : Type} {P : α → Prop} {height depth size fuel : Nat} {first : Bool}
  {cs rest : List Char} {tag k : String} {names : List (String × α)} {a : α}
  {members : List (String × Value)}

/-! ## Tagged records -/

/-- Behind the tag, the other members are read as they are. -/
theorem taggedMembers_reads (hm : ∀ m ∈ members, m.1 ≠ tag ∧ Within height m.2)
    (hrow : Row WrittenMember first members cs) (hd : height < depth)
    (hf : members.length < fuel) (hl : cs.length ≤ size) :
    Reads depth size (taggedMembers tag names fuel first (some a)) (cs ++ '\x7d' :: rest)
      ('\x7d' :: rest) (a, members) := by
  induction members generalizing first cs fuel with
  | nil =>
    obtain ⟨fuel, rfl⟩ := Nat.exists_eq_add_one.2 hf
    cases hrow with
    | done hs => exact (hasMember_ends hs).bind .pure
  | cons m members ih =>
    obtain ⟨⟨hne, hwithin⟩, hothers⟩ := List.forall_mem_cons.1 hm
    obtain ⟨fuel, rfl⟩ := Nat.exists_eq_add_one.2 (Nat.zero_lt_of_lt hf)
    cases hrow with
    | item hlead hwritten hmore =>
      cases hwritten with
      | @member k v before after text hb ha hw =>
        have hkey := length_le_stringChars k
        simp only [List.length_append, List.length_cons] at hl
        simp only [List.append_assoc, List.cons_append]
        refine (hasMember_reads hlead).bind ((stringToken_reads (by omega)).bind ?_)
        rw [if_neg hne]
        refine (colon_reads hb).bind ?_
        refine (takes_value hwithin hd ha hw (hmore.stops (by decide)) (by omega)).bind ?_
        exact (ih hothers hmore (Nat.lt_of_succ_lt_succ hf) (by omega)).bind .pure

/-- **A record is taken apart by its tag**, which comes first. -/
theorem takes_tagged {wanted : String} (h : names.lookup k = some a)
    (hm : ∀ m ∈ members, m.1 ≠ tag ∧ Within height m.2) :
    Takes (height + 1) (tagged wanted tag names) (.object ((tag, .string k) :: members))
      (a, .object members) := by
  intro depth size spaces text rest hd hs hw hr hl
  cases hw with
  | @object _ cs hrow =>
    have hlength := hrow.length_le fun _ _ => WrittenMember.ne_nil
    simp only [List.length_cons, List.length_append] at hl hlength
    rw [List.cons_append, List.append_assoc]
    refine (peekValue_reads hs (by decide)).bind (inBraces_reads (by omega) (.get fun _ => ?_))
    cases hrow with
    | item hlead hwritten hmore =>
      cases hwritten with
      | @member _ _ before after text hb ha hw =>
        have hkey := length_le_stringChars tag
        simp only [List.length_append, List.length_cons] at hl hlength
        simp only [List.append_assoc, List.cons_append, taggedMembers]
        refine Reads.bind (a := (a, members)) ?_ .pure
        refine (hasMember_reads hlead).bind ((stringToken_reads (by omega)).bind ?_)
        rw [if_pos rfl]
        refine (colon_reads hb).bind ?_
        have hdepth : height < depth - 1 := by omega
        refine (takes_name h hdepth ha hw (hmore.stops (by decide)) (by omega)).bind ?_
        exact taggedMembers_reads hm hmore hdepth (by omega) (by omega)

theorem Takes.within {r : Reader (Buffered α × Value)} {b : Buffered α} {v w : Value} {a : α}
    (h : Takes height r v (b, w)) (hb : b.Takes w a) :
    Takes height (do let (b, w) ← r; b.within w) v a := by
  have hw : b w = .ok a := hb
  exact h.bind (by simp only [Buffered.within, hw])

/-- The part of a tagged record that is read in the end has what each of the
    decoders answers with. -/
theorem answers_tagged {wanted : String} (h : ∀ p ∈ names, P p.2) :
    Answers (fun p => P p.1) (tagged wanted tag names) := by
  have hmembers : ∀ fuel first found, (∀ a ∈ found, P a) →
      Answers (fun p => P p.1) (taggedMembers tag names fuel first found) := by
    intro fuel
    induction fuel with
    | zero => exact fun _ _ _ => answers_failHere _
    | succ fuel ih =>
      intro first found hfound
      refine .after fun more => ?_
      split
      · refine .after fun k => ?_
        split
        · split
          · exact answers_refuse _
          · refine .after fun _ => (answers_name h).bind fun a ha => ih _ _ ?_
            rintro _ ⟨⟩
            exact ha
        · exact .after fun _ => .after fun v => (ih _ _ hfound).bind fun p hp => .pure hp
      · split
        · exact .pure (hfound _ rfl)
        · exact answers_refuse _
  refine .after fun first => ?_
  split
  · exact .inBraces (.after fun c => (hmembers _ true none nofun).bind fun p hp => .pure hp)
  split
  · refine .inBrackets (.after fun more => ?_)
    split
    · exact (answers_name h).bind fun a ha => .after fun c => .after fun vs => .pure ha
    · exact answers_refuse _
  · exact answers_mismatch _

theorem Answers.within {r : Reader (Buffered α × Value)}
    (h : Answers (fun p => p.1.Answers P) r) :
    Answers P (do let (b, w) ← r; b.within w) := by
  refine h.bind ?_
  rintro ⟨b, w⟩ hb
  dsimp only [Buffered.within]
  split
  next a ha => exact .pure (hb w a ha)
  next => exact answers_refuse _

end Reader

end SchemaLoom.Json
