/-
  Which tokens a step takes, and what it answers with.

  A `Phrase` relates tokens to what they stand for.  `Takes n p R S`: on a stream
  of at most `n` tokens, what the step `p` takes and answers with is related by
  `R`, and it takes every such phrase that has a token behind it which satisfies
  `S`.

  * `Takes.bind`, `Takes.step`, `Takes.head`: how steps are put together;
  * `takes_listUntil`: a list takes what is `CommaSeparated`, up to the closing
    token.
-/
import SchemaLoom.Proofs.Results
import SchemaLoom.Source.Parse

namespace SchemaLoom.Source

variable {α β : Type}

/-! ## Phrases -/

/-- Which tokens stand for what. -/
abbrev Phrase (α : Type) := List Located → α → Prop

/-- One token, which `P` relates to what it stands for. -/
def One (P : Token → α → Prop) : Phrase α := fun ts a => ∃ x, ts = [x] ∧ P x.token a

/-- Items with commas between them.  A comma may follow the last. -/
inductive CommaSeparated (Item : Phrase α) : Phrase (List α)
  | nil : CommaSeparated Item [] []
  | single {ts : List Located} {a : α} : Item ts a → CommaSeparated Item ts [a]
  | cons {ts us : List Located} {a : α} {as : List α} {comma : Located} : Item ts a →
      comma.token = .comma → CommaSeparated Item us as →
      CommaSeparated Item (ts ++ comma :: us) (a :: as)

/-- Items with commas between them, and the closing token. -/
def UpTo (close : Token) (Item : Phrase α) : Phrase (List α) := fun ts as =>
  ∃ us x, ts = us ++ [x] ∧ x.token = close ∧ CommaSeparated Item us as

/-! ## Streams -/

/-- The stream with some tokens in front. -/
def Stream.after (s : Stream) (ts : List Located) : Stream := { s with tokens := ts ++ s.tokens }

namespace Stream

variable {s : Stream} {ts : List Located} {x : Located} {xs : List Located} {e : Nat}

theorem after_append (s : Stream) (ts us : List Located) :
    s.after (ts ++ us) = (s.after us).after ts :=
  congrArg (Stream.mk · s.endLine) (List.append_assoc ts us s.tokens)

/-- Some tokens, one that is told apart, and others. -/
theorem after_middle (s : Stream) (ts us : List Located) (x : Located) :
    s.after (ts ++ x :: us) = ((s.after us).after [x]).after ts :=
  after_append s ts (x :: us)

theorem length_after (s : Stream) (ts : List Located) :
    (s.after ts).tokens.length = ts.length + s.tokens.length :=
  List.length_append

end Stream

namespace Parse

variable {n m : Nat} {p : Parse α} {f : α → Parse β} {R R' : Phrase α} {Q : α → Phrase β}
  {S : Option Token → Prop}

/-! ## How steps are put together -/

/-- On a stream of at most `n` tokens, the step takes the phrases of `R` that have
    a token behind them which satisfies `S`, and no others than those of `R`. -/
structure Takes (n : Nat) (p : Parse α) (R : Phrase α) (S : Option Token → Prop) : Prop where
  sound : ∀ {s a s'}, s.tokens.length ≤ n → p s = .ok (a, s') → ∃ ts, s = s'.after ts ∧ R ts a
  complete : ∀ {ts a s'}, (s'.after ts).tokens.length ≤ n → R ts a → S s'.current →
    p (s'.after ts) = .ok (a, s')

/-- Any token may follow. -/
def Anything : Option Token → Prop := fun _ => True

theorem Takes.congr (hp : Takes n p R S) (h : ∀ ts a, R ts a ↔ R' ts a) : Takes n p R' S := by
  have hR : R = R' := funext fun ts => funext fun a => propext (h ts a)
  exact hR ▸ hp

theorem Takes.mono (hp : Takes n p R S) (h : m ≤ n) : Takes m p R S :=
  ⟨fun hs => hp.sound (Nat.le_trans hs h), fun hs => hp.complete (Nat.le_trans hs h)⟩

theorem takes_pure (a : α) : Takes n (pure a) (fun ts b => ts = [] ∧ b = a) S where
  sound _ h := by
    cases h
    exact ⟨[], rfl, rfl, rfl⟩
  complete _ h _ := by
    obtain ⟨rfl, rfl⟩ := h
    rfl

/-- A step that takes nothing. -/
theorem takes_expected {wanted : Expectation} (h : ∀ ts a, ¬ R ts a) :
    Takes n (expected wanted) R S :=
  ⟨nofun, fun _ hR _ => absurd hR (h _ _)⟩

theorem run_bind_eq_ok {s : Stream} {r : β × Stream} :
    (p >>= f) s = .ok r ↔ ∃ a s₁, p s = .ok (a, s₁) ∧ f a s₁ = .ok r :=
  bind_eq_ok.trans Prod.exists

theorem current_bind (f : Option Token → Parse β) (s : Stream) :
    (current >>= f) s = f s.current s :=
  rfl

/-- A step, and what follows it. -/
theorem Takes.bind (hp : Takes n p R Anything) (hf : ∀ a, Takes n (f a) (Q a) S) :
    Takes n (p >>= f) (fun ts b => ∃ us vs a, ts = us ++ vs ∧ R us a ∧ Q a vs b) S where
  sound {s b s'} hs h := by
    obtain ⟨a, s₁, ha, hb⟩ := run_bind_eq_ok.1 h
    obtain ⟨us, rfl, hus⟩ := hp.sound hs ha
    rw [Stream.length_after] at hs
    obtain ⟨vs, rfl, hvs⟩ := (hf a).sound (by omega) hb
    exact ⟨us ++ vs, (Stream.after_append s' us vs).symm, us, vs, a, rfl, hus, hvs⟩
  complete {ts b s'} hs h hS := by
    obtain ⟨us, vs, a, rfl, hus, hvs⟩ := h
    rw [Stream.after_append] at hs ⊢
    refine run_bind_eq_ok.2 ⟨a, s'.after vs, hp.complete hs hus trivial, ?_⟩
    rw [Stream.length_after] at hs
    exact (hf a).complete (by omega) hvs hS

/-- A step whose answer is looked at further. -/
theorem Takes.answer {g : α → Except Error β} (hp : Takes n p R S)
    (hf : ∀ a s, f a s = (g a).map fun b => (b, s)) :
    Takes n (p >>= f) (fun ts b => ∃ a, R ts a ∧ g a = .ok b) S where
  sound {s b s'} hs h := by
    obtain ⟨a, s₁, ha, hb⟩ := run_bind_eq_ok.1 h
    rw [hf] at hb
    obtain ⟨c, hc, he⟩ := map_eq_ok_iff.1 hb
    obtain ⟨rfl, rfl⟩ := Prod.mk.inj he
    obtain ⟨ts, rfl, hts⟩ := hp.sound hs ha
    exact ⟨ts, rfl, a, hts, hc⟩
  complete {ts b s'} hs h hS := by
    obtain ⟨a, hts, hc⟩ := h
    refine run_bind_eq_ok.2 ⟨a, s', hp.complete hs hts hS, ?_⟩
    rw [hf, hc]
    rfl

/-- A step whose answer is part of another. -/
theorem Takes.map (g : α → β) (hp : Takes n p R S) :
    Takes n (p >>= fun a => pure (g a)) (fun ts b => ∃ a, R ts a ∧ g a = b) S :=
  (hp.answer (g := fun a => .ok (g a)) fun _ _ => rfl).congr fun _ _ =>
    exists_congr fun _ => and_congr_right fun _ => ⟨Except.ok.inj, congrArg _⟩

/-- A step that looks at the whole stream. -/
theorem Takes.get {f : Stream → Parse α} (h : ∀ s : Stream, Takes s.tokens.length (f s) R S) :
    Takes n (MonadState.get >>= f) R S :=
  ⟨fun _ hf => (h _).sound (Nat.le_refl _) hf, fun _ hR hS => (h _).complete (Nat.le_refl _) hR hS⟩

/-- A step that is told by the first token. -/
theorem Takes.head (hnil : ∀ e r, p ⟨[], e⟩ ≠ .ok r) (hR : ∀ a, ¬ R [] a)
    (hp : ∀ x : Located, ∃ q : Parse α, Takes n q (fun ts a => R (x :: ts) a) S ∧
      ∀ xs e r, p ⟨x :: xs, e⟩ = .ok r ↔ q ⟨xs, e⟩ = .ok r) : Takes (n + 1) p R S where
  sound {s a s'} hs h := by
    obtain ⟨_ | ⟨x, xs⟩, e⟩ := s
    · exact absurd h (hnil e _)
    · obtain ⟨q, hq, hpq⟩ := hp x
      obtain ⟨ts, hts, hR⟩ := hq.sound (Nat.le_of_succ_le_succ hs) ((hpq xs e _).1 h)
      refine ⟨x :: ts, ?_, hR⟩
      cases hts
      rfl
  complete {ts a s'} hs h hS := by
    cases ts with
    | nil => exact absurd h (hR a)
    | cons x ts =>
      obtain ⟨q, hq, hpq⟩ := hp x
      exact (hpq _ _ _).2 (hq.complete (Nat.le_of_succ_le_succ hs) h hS)

/-! ## Single tokens -/

theorem takes_one {P : Token → α → Prop} (hnil : ∀ e r, p ⟨[], e⟩ ≠ .ok r)
    (hcons : ∀ x xs e r, p ⟨x :: xs, e⟩ = .ok r ↔ P x.token r.1 ∧ r.2 = ⟨xs, e⟩) :
    Takes n p (One P) S where
  sound {s a s'} _ h := by
    obtain ⟨_ | ⟨x, xs⟩, e⟩ := s
    · exact absurd h (hnil e _)
    · obtain ⟨hP, rfl⟩ := (hcons x xs e _).1 h
      exact ⟨[x], rfl, x, rfl, hP⟩
  complete _ h _ := by
    obtain ⟨x, rfl, hP⟩ := h
    exact (hcons x _ _ _).2 ⟨hP, rfl⟩

/-- A token, and what follows it. -/
theorem Takes.step {P : Token → α → Prop} (hp : Takes n p (One P) Anything)
    (hf : ∀ a, Takes n (f a) (Q a) S) :
    Takes n (p >>= f) (fun ts b => ∃ x us a, ts = x :: us ∧ P x.token a ∧ Q a us b) S := by
  refine (hp.bind hf).congr fun ts b => ?_
  constructor
  · rintro ⟨_, us, a, rfl, ⟨x, rfl, hP⟩, hQ⟩
    exact ⟨x, us, a, rfl, hP, hQ⟩
  · rintro ⟨x, us, a, rfl, hP, hQ⟩
    exact ⟨[x], us, a, rfl, ⟨x, rfl, hP⟩, hQ⟩

theorem eat_of_current {t : Token} {s : Stream} (h : s.current = some t) :
    eat t s = .ok (true, { s with tokens := s.tokens.tail }) := by
  show (if s.current = some t then (do advance; pure true) else pure false : Parse Bool) s = _
  rw [if_pos h]
  rfl

theorem eat_of_ne {t : Token} {s : Stream} (h : s.current ≠ some t) : eat t s = .ok (false, s) := by
  show (if s.current = some t then (do advance; pure true) else pure false : Parse Bool) s = _
  rw [if_neg h]
  rfl

/-- What follows a token that may be there. -/
theorem eat_bind_eq_ok {t : Token} {f : Bool → Parse β} {s : Stream} {r : β × Stream} :
    (eat t >>= f) s = .ok r ↔ (∃ x s₁, x.token = t ∧ s = s₁.after [x] ∧ f true s₁ = .ok r) ∨
      s.current ≠ some t ∧ f false s = .ok r := by
  have hrun : (eat t >>= f) s = eat t s >>= fun r => f r.1 r.2 := rfl
  rw [hrun]
  by_cases h : s.current = some t
  · rw [eat_of_current h]
    obtain ⟨tokens, e⟩ := s
    obtain ⟨x, hx, ht⟩ := Option.map_eq_some_iff.1 h
    obtain ⟨xs, rfl⟩ := List.head?_eq_some_iff.1 hx
    constructor
    · exact fun hf => .inl ⟨x, ⟨xs, e⟩, ht, rfl, hf⟩
    · rintro (⟨y, s₁, -, hs, hf⟩ | ⟨hn, -⟩)
      · cases hs
        exact hf
      · exact absurd h hn
  · rw [eat_of_ne h]
    constructor
    · exact fun hf => .inr ⟨h, hf⟩
    · rintro (⟨y, s₁, hy, rfl, -⟩ | ⟨-, hf⟩)
      · exact absurd (congrArg some hy) h
      · exact hf

theorem takes_expect (t : Token) : Takes n (expect t) (One fun u (_ : Unit) => u = t) S := by
  refine takes_one nofun fun x xs e r => ?_
  rw [expect, eat_bind_eq_ok]
  constructor
  · rintro (⟨y, s₁, hy, hs, h⟩ | ⟨-, h⟩)
    · cases hs
      cases h
      exact ⟨hy, rfl⟩
    · cases h
  · obtain ⟨a, s'⟩ := r
    rintro ⟨hx, rfl⟩
    exact .inl ⟨x, ⟨xs, e⟩, hx, rfl, rfl⟩

theorem takes_identifier : Takes n identifier (One fun u name => u = .identifier name) S := by
  refine takes_one nofun fun x xs e r => ?_
  obtain ⟨t, line⟩ := x
  constructor
  · intro h
    cases t <;> cases h
    exact ⟨rfl, rfl⟩
  · obtain ⟨a, s'⟩ := r
    rintro ⟨h, rfl⟩
    cases h
    rfl

theorem endOfInput_eq_ok {s s' : Stream} {u : Unit} :
    endOfInput s = .ok (u, s') ↔ s.tokens = [] ∧ s' = s := by
  obtain ⟨_ | ⟨x, xs⟩, e⟩ := s
  · constructor
    · intro h
      cases h
      exact ⟨rfl, rfl⟩
    · rintro ⟨-, rfl⟩
      rfl
  · exact ⟨nofun, nofun⟩

/-! ## Lists -/

section
variable {close : Token} {item : Parse α} {room : List Located} {s s' : Stream} {as : List α}

/-- A list has no items, or one and a comma before others, or a last one. -/
theorem commaList_eq_ok (hne : close ≠ .comma) : commaList close item room s = .ok (as, s') ↔
    (∃ x, x.token = close ∧ s = s'.after [x] ∧ as = []) ∨
    s.current ≠ some close ∧ ∃ a s₁, item s = .ok (a, s₁) ∧
      ((∃ x s₂ r room' as', x.token = .comma ∧ s₁ = s₂.after [x] ∧ room = r :: room' ∧
          commaList close item room' s₂ = .ok (as', s') ∧ as = a :: as') ∨
        ∃ x, x.token = close ∧ s₁ = s'.after [x] ∧ as = [a]) := by
  rw [commaList.eq_def, eat_bind_eq_ok]
  refine or_congr ?_ (and_congr_right fun _ => ?_)
  · constructor
    · rintro ⟨x, s₁, hx, rfl, h⟩
      cases h
      exact ⟨x, hx, rfl, rfl⟩
    · rintro ⟨x, hx, rfl, rfl⟩
      exact ⟨x, s', hx, rfl, rfl⟩
  · refine run_bind_eq_ok.trans (exists₂_congr fun a s₁ => and_congr_right fun _ => ?_)
    refine eat_bind_eq_ok.trans (or_congr ?_ ?_)
    · constructor
      · rintro ⟨x, s₂, hx, rfl, h⟩
        cases room with
        | nil => cases h
        | cons r room =>
          obtain ⟨as', s₃, has, h⟩ := run_bind_eq_ok.1 h
          cases h
          exact ⟨x, s₂, r, room, as', hx, rfl, rfl, has, rfl⟩
      · rintro ⟨x, s₂, r, room, as', hx, rfl, rfl, has, rfl⟩
        exact ⟨x, s₂, hx, rfl, run_bind_eq_ok.2 ⟨as', s', has, rfl⟩⟩
    · have hlast : Takes s₁.tokens.length (expect close >>= fun _ => pure [a])
          (fun ts b => ∃ u, One (fun u (_ : Unit) => u = close) ts u ∧ [a] = b) Anything :=
        (takes_expect close).map fun _ => [a]
      constructor
      · rintro ⟨-, h⟩
        obtain ⟨_, rfl, _, ⟨x, rfl, hx⟩, rfl⟩ := hlast.sound (Nat.le_refl _) h
        exact ⟨x, hx, rfl, rfl⟩
      · rintro ⟨x, hx, rfl, rfl⟩
        refine ⟨fun h => hne ?_, hlast.complete (Nat.le_refl _) ⟨(), ⟨x, rfl, hx⟩, rfl⟩ trivial⟩
        exact hx.symm.trans (Option.some.inj h)

variable (hne : close ≠ .comma) (hitem : Takes n item R S)
include hne hitem

/-- What is taken for a list is separated by commas. -/
theorem commaList_sound (hs : s.tokens.length ≤ n) (h : commaList close item room s = .ok (as, s')) :
    ∃ ts, s = s'.after ts ∧ UpTo close R ts as := by
  induction as generalizing s room with
  | nil =>
    rcases (commaList_eq_ok hne).1 h with ⟨x, hx, rfl, -⟩ | ⟨-, a, s₁, -, hnext⟩
    · exact ⟨[x], rfl, [], x, rfl, hx, .nil⟩
    · rcases hnext with ⟨_, _, _, _, _, -, -, -, -, he⟩ | ⟨_, -, -, he⟩ <;> cases he
  | cons a as ih =>
    rcases (commaList_eq_ok hne).1 h with ⟨_, -, -, he⟩ | ⟨-, b, s₁, hb, hnext⟩
    · cases he
    obtain ⟨ts, rfl, hts⟩ := hitem.sound hs hb
    rcases hnext with ⟨comma, s₂, r, room', as', hc, rfl, rfl, has, he⟩ | ⟨x, hx, rfl, he⟩
    · cases he
      rw [Stream.length_after, Stream.length_after] at hs
      obtain ⟨_, rfl, us, x, rfl, hx, hus⟩ := ih (by omega) has
      refine ⟨ts ++ comma :: us ++ [x], ?_, _, x, rfl, hx, .cons hts hc hus⟩
      rw [List.append_assoc, List.cons_append, Stream.after_middle s' ts]
    · cases he
      exact ⟨ts ++ [x], (Stream.after_append s' ts [x]).symm, ts, x, rfl, hx, .single hts⟩

variable (hcomma : S (some .comma)) (hclose : S (some close))
  (hhead : ∀ ts a, R ts a → ∃ x us, ts = x :: us ∧ x.token ≠ close)
include hcomma hclose hhead

/-- Items that are separated by commas are taken for a list, in enough room. -/
theorem commaList_complete {us : List Located} {x : Located} (hx : x.token = close)
    (h : CommaSeparated R us as) (hs : (s'.after (us ++ [x])).tokens.length ≤ n)
    (hroom : us.length ≤ room.length) :
    commaList close item room (s'.after (us ++ [x])) = .ok (as, s') := by
  -- an item does not begin with the closing token, so the list goes on
  have hgoes : ∀ {ts a}, R ts a → ∀ s : Stream, (s.after ts).current ≠ some close := by
    intro ts a ha s he
    obtain ⟨y, ys, rfl, hy⟩ := hhead ts a ha
    exact hy (Option.some.inj he)
  induction h generalizing room with
  | nil => exact (commaList_eq_ok hne).2 (.inl ⟨x, hx, rfl, rfl⟩)
  | @single ts a ha =>
    rw [Stream.after_append] at hs ⊢
    refine (commaList_eq_ok hne).2 (.inr ⟨hgoes ha _, a, s'.after [x], ?_, .inr ⟨x, hx, rfl, rfl⟩⟩)
    exact hitem.complete hs ha (show S (some x.token) from hx ▸ hclose)
  | @cons ts us a as comma ha hc has ih =>
    obtain _ | ⟨r, room⟩ := room
    · simp at hroom
    have hrest : s'.after (ts ++ comma :: us ++ [x]) =
        ((s'.after (us ++ [x])).after [comma]).after ts := by
      rw [List.append_assoc, List.cons_append, Stream.after_middle s' ts]
    rw [hrest] at hs ⊢
    have hlen := hs
    rw [Stream.length_after, Stream.length_after] at hlen
    rw [List.length_append, List.length_cons, List.length_cons] at hroom
    have htail : commaList close item room (s'.after (us ++ [x])) = .ok (as, s') :=
      ih (by omega) (by omega)
    refine (commaList_eq_ok hne).2 (.inr ⟨hgoes ha _, a, (s'.after (us ++ [x])).after [comma], ?_,
      .inl ⟨comma, s'.after (us ++ [x]), r, room, as, hc, rfl, rfl, htail, rfl⟩⟩)
    exact hitem.complete hs ha (show S (some comma.token) from hc ▸ hcomma)

/-- **A list takes items that are separated by commas**, up to the closing token. -/
theorem takes_listUntil : Takes n (listUntil close item) (UpTo close R) Anything where
  sound hs h := commaList_sound hne hitem hs h
  complete {ts as s'} hs h _ := by
    obtain ⟨us, x, rfl, hx, hus⟩ := h
    refine commaList_complete hne hitem hcomma hclose hhead hx hus hs ?_
    rw [Stream.length_after, List.length_append]
    omega

end

end Parse

end SchemaLoom.Source
