/-
  What steps over a stream of tokens read.

  `p.Reads ts rest Q`: on a stream with the tokens `ts` the step `p` succeeds,
  leaves `rest` and answers with a value that satisfies `Q`.  Lines play no
  part, since only faults tell them.

  * `listUntil_terminated`, `listUntil_separated`: the two ways to write a list,
    with a comma behind every item and with commas between the items.
-/
import SchemaLoom.Source.Entity
import SchemaLoom.Proofs.Source.Spelling

namespace SchemaLoom.Source

namespace Parse

variable {α β : Type} {ts mid rest : List Token}

/-- The step reads the tokens `ts` up to `rest`. -/
def Reads (p : Parse α) (ts rest : List Token) (Q : α → Prop) : Prop :=
  ∀ s : Stream, s.kinds = ts → ∃ a s', p s = .ok (a, s') ∧ s'.kinds = rest ∧ Q a

theorem Reads.pure {a : α} {Q : α → Prop} (h : Q a) : Reads (Pure.pure a) ts ts Q :=
  fun s hs => ⟨a, s, rfl, hs, h⟩

theorem Reads.bind {p : Parse α} {f : α → Parse β} {P : α → Prop} {Q : β → Prop}
    (hp : Reads p ts mid P) (hf : ∀ a, P a → Reads (f a) mid rest Q) :
    Reads (p >>= f) ts rest Q := by
  intro s hs
  obtain ⟨a, s₁, h₁, hm, ha⟩ := hp s hs
  obtain ⟨b, s₂, h₂, hr, hb⟩ := hf a ha s₁ hm
  exact ⟨b, s₂, by simp only [Bind.bind, StateT.bind, h₁, Except.bind, h₂], hr, hb⟩

theorem Reads.mono {p : Parse α} {P Q : α → Prop} (hp : Reads p ts rest P)
    (h : ∀ a, P a → Q a) : Reads p ts rest Q := by
  intro s hs
  obtain ⟨a, s', hok, hr, ha⟩ := hp s hs
  exact ⟨a, s', hok, hr, h a ha⟩

/-- A step with a known answer, and what follows it. -/
theorem Reads.seq {p : Parse α} {f : α → Parse β} {a : α} {Q : β → Prop}
    (hp : Reads p ts mid (· = a)) (hf : Reads (f a) mid rest Q) : Reads (p >>= f) ts rest Q :=
  hp.bind fun _ ha => ha ▸ hf

/-- A step whose answer does not matter, and what follows it. -/
theorem Reads.next {p : Parse α} {f : α → Parse β} {P : α → Prop} {Q : β → Prop}
    (hp : Reads p ts mid P) (hf : ∀ a, Reads (f a) mid rest Q) : Reads (p >>= f) ts rest Q :=
  hp.bind fun a _ => hf a

/-- A step that looks at the whole stream. -/
theorem Reads.get {f : Stream → Parse α} {Q : α → Prop}
    (h : ∀ s, s.kinds = ts → Reads (f s) ts rest Q) : Reads (MonadState.get >>= f) ts rest Q :=
  fun s hs => h s hs s hs

/-! ## Refused tokens -/

/-- The step stops with a fault on the tokens `ts`. -/
def Refuses (p : Parse α) (ts : List Token) : Prop :=
  ∀ s : Stream, s.kinds = ts → ∃ e, p s = .error e

/-- What follows a step that stops is not reached. -/
theorem Refuses.bind {p : Parse α} {f : α → Parse β} (hp : Refuses p ts) :
    Refuses (p >>= f) ts := by
  intro s hs
  obtain ⟨e, he⟩ := hp s hs
  exact ⟨e, by simp only [Bind.bind, StateT.bind, he, Except.bind]⟩

/-- What follows a step stops. -/
theorem Reads.refuses {p : Parse α} {f : α → Parse β} {P : α → Prop} (hp : Reads p ts mid P)
    (hf : ∀ a, P a → Refuses (f a) mid) : Refuses (p >>= f) ts := by
  intro s hs
  obtain ⟨a, s₁, h₁, hm, ha⟩ := hp s hs
  obtain ⟨e, he⟩ := hf a ha s₁ hm
  exact ⟨e, by simp only [Bind.bind, StateT.bind, h₁, Except.bind, he]⟩

/-- What follows a step with a known answer stops. -/
theorem Reads.seq_refuses {p : Parse α} {f : α → Parse β} {a : α} (hp : Reads p ts mid (· = a))
    (hf : Refuses (f a) mid) : Refuses (p >>= f) ts :=
  hp.refuses fun _ ha => ha ▸ hf

/-- A step that looks at the whole stream stops. -/
theorem Refuses.get {f : Stream → Parse α} (h : ∀ s, s.kinds = ts → Refuses (f s) ts) :
    Refuses (MonadState.get >>= f) ts :=
  fun s hs => h s hs s hs

/-! ## Single tokens -/

theorem current_reads : Reads current ts ts (· = ts.head?) := by
  intro s hs
  refine ⟨_, s, rfl, hs, ?_⟩
  rw [← hs, Stream.current, Stream.kinds, List.head?_map]

theorem advance_reads {t : Token} : Reads advance (t :: ts) ts fun _ => True := by
  intro s hs
  refine ⟨(), _, rfl, ?_, trivial⟩
  rw [Stream.kinds] at hs ⊢
  rw [List.map_tail, hs, List.tail_cons]

theorem eat_reads {t : Token} : Reads (eat t) (t :: ts) ts (· = true) := by
  refine .seq current_reads ?_
  rw [List.head?_cons, if_pos rfl]
  exact .next advance_reads fun _ => .pure rfl

theorem eat_passes {t : Token} (h : ts.head? ≠ some t) : Reads (eat t) ts ts (· = false) := by
  refine .seq current_reads ?_
  rw [if_neg h]
  exact .pure rfl

theorem expect_reads {t : Token} : Reads (expect t) (t :: ts) ts fun _ => True :=
  .seq eat_reads (.pure trivial)

theorem identifier_reads {name : String} :
    Reads identifier (.identifier name :: ts) ts (· = name) :=
  .seq current_reads (.next advance_reads fun _ => .pure rfl)

theorem keyword_reads {word : String} :
    Reads (keyword word) (.identifier word :: ts) ts fun _ => True := by
  refine .seq current_reads ?_
  rw [List.head?_cons, if_pos rfl]
  exact advance_reads

theorem string_reads {text : String} : Reads string (.string text :: ts) ts (· = text) :=
  .seq current_reads (.next advance_reads fun _ => .pure rfl)

theorem endOfInput_reads : Reads endOfInput [] [] fun _ => True :=
  .seq current_reads (.pure trivial)

/-! ## Lists -/

/-- The tokens begin with one other than `t`. -/
def BeginsOther (t : Token) (ts : List Token) : Prop := ∃ u us, ts = u :: us ∧ u ≠ t

theorem BeginsOther.head? {t : Token} (h : BeginsOther t ts) (rest : List Token) :
    (ts ++ rest).head? ≠ some t := by
  obtain ⟨u, us, rfl, hu⟩ := h
  simpa using hu

theorem length_le_flatMap (xs : List β) (text : β → List Token) (t : Token) :
    xs.length ≤ (xs.flatMap fun x => text x ++ [t]).length := by
  induction xs with
  | nil => simp
  | cons x xs ih =>
    simp only [List.flatMap_cons, List.length_append, List.length_cons]
    omega

theorem length_le_intercalate (tss : List (List Token)) (t : Token) :
    tss.length ≤ ([t].intercalate tss).length + 1 := by
  induction tss with
  | nil => simp
  | cons ts tss ih =>
    cases tss with
    | nil => simp
    | cons us tss =>
      rw [List.intercalate_cons_cons]
      simp only [List.length_append, List.length_cons] at ih ⊢
      omega

section
variable {close : Token} {item : Parse α} {text : β → List Token} (value : β → α) {xs : List β}

/-- A list with a comma behind every item, in enough room. -/
theorem commaList_terminated (hitem : ∀ x ∈ xs, ∀ rest,
      Reads item (text x ++ Token.comma :: rest) (Token.comma :: rest) (· = value x))
    (hhead : ∀ x ∈ xs, BeginsOther close (text x))
    (room : List Located) (hroom : xs.length ≤ room.length) :
    Reads (commaList close item room)
      (xs.flatMap (fun x => text x ++ [Token.comma]) ++ close :: rest) rest
      (· = xs.map value) := by
  induction xs generalizing room with
  | nil =>
    rw [commaList.eq_def]
    exact .seq eat_reads (.pure rfl)
  | cons x xs ih =>
    obtain ⟨hx, hxs⟩ := List.forall_mem_cons.1 hitem
    obtain ⟨hh, hhs⟩ := List.forall_mem_cons.1 hhead
    cases room with
    | nil => simp at hroom
    | cons r room =>
      rw [commaList.eq_def, List.flatMap_cons, List.append_assoc, List.append_assoc,
        List.singleton_append]
      refine (eat_passes (hh.head? _)).seq ((hx _).seq (.seq eat_reads ?_))
      exact (ih hxs hhs room (by simpa using hroom)).seq (.pure rfl)

/-- A list with commas between the items, in enough room. -/
theorem commaList_separated (hclose : close ≠ .comma)
    (hitem : ∀ x ∈ xs, ∀ t ∈ [Token.comma, close], ∀ rest,
      Reads item (text x ++ t :: rest) (t :: rest) (· = value x))
    (hhead : ∀ x ∈ xs, BeginsOther close (text x))
    (room : List Located) (hroom : xs.length ≤ room.length + 1) :
    Reads (commaList close item room)
      ([Token.comma].intercalate (xs.map text) ++ close :: rest) rest (· = xs.map value) := by
  induction xs generalizing room with
  | nil =>
    rw [commaList.eq_def]
    exact .seq eat_reads (.pure rfl)
  | cons x xs ih =>
    obtain ⟨hx, hxs⟩ := List.forall_mem_cons.1 hitem
    obtain ⟨hh, hhs⟩ := List.forall_mem_cons.1 hhead
    rw [commaList.eq_def]
    cases xs with
    | nil =>
      rw [List.map_singleton, List.intercalate_singleton]
      refine (eat_passes (hh.head? _)).seq ((hx close (by simp) _).seq ?_)
      refine (eat_passes (by simpa using hclose)).seq ?_
      exact expect_reads.next fun _ => .pure rfl
    | cons y ys =>
      cases room with
      | nil => simp at hroom
      | cons r room =>
        rw [List.map_cons, List.map_cons, List.intercalate_cons_cons, ← List.map_cons,
          List.append_assoc, List.append_assoc, List.singleton_append]
        refine (eat_passes (hh.head? _)).seq ((hx .comma (by simp) _).seq (.seq eat_reads ?_))
        exact (ih hxs hhs room (by simpa using hroom)).seq (.pure rfl)

/-- A list with a comma behind every item. -/
theorem listUntil_terminated (hitem : ∀ x ∈ xs, ∀ rest,
      Reads item (text x ++ Token.comma :: rest) (Token.comma :: rest) (· = value x))
    (hhead : ∀ x ∈ xs, BeginsOther close (text x)) :
    Reads (listUntil close item)
      (xs.flatMap (fun x => text x ++ [Token.comma]) ++ close :: rest) rest
      (· = xs.map value) := by
  refine Reads.get fun s hs => commaList_terminated value hitem hhead s.tokens ?_
  have h1 := length_le_flatMap xs text Token.comma
  have h2 : s.tokens.length = s.kinds.length := by simp [Stream.kinds]
  rw [h2, hs, List.length_append]
  omega

/-- A list with commas between the items. -/
theorem listUntil_separated (hclose : close ≠ .comma)
    (hitem : ∀ x ∈ xs, ∀ t ∈ [Token.comma, close], ∀ rest,
      Reads item (text x ++ t :: rest) (t :: rest) (· = value x))
    (hhead : ∀ x ∈ xs, BeginsOther close (text x)) :
    Reads (listUntil close item)
      ([Token.comma].intercalate (xs.map text) ++ close :: rest) rest (· = xs.map value) := by
  refine Reads.get fun s hs => commaList_separated value hclose hitem hhead s.tokens ?_
  have h1 := length_le_intercalate (xs.map text) Token.comma
  have h2 : s.tokens.length = s.kinds.length := by simp [Stream.kinds]
  rw [List.length_map] at h1
  rw [h2, hs, List.length_append, List.length_cons]
  omega

end

/-- A list with a comma behind every item stops at the first item that does,
    in whatever room. -/
theorem commaList_refuses {close : Token} {item : Parse α} {text : β → List Token}
    {good : β → Prop} {xs : List β}
    (hgood : ∀ x ∈ xs, good x → ∀ rest,
      Reads item (text x ++ Token.comma :: rest) (Token.comma :: rest) fun _ => True)
    (hbad : ∀ x ∈ xs, ¬ good x → ∀ rest, Refuses item (text x ++ Token.comma :: rest))
    (hhead : ∀ x ∈ xs, BeginsOther close (text x)) (hsome : ¬ ∀ x ∈ xs, good x)
    (room : List Located) :
    Refuses (commaList close item room)
      (xs.flatMap (fun x => text x ++ [Token.comma]) ++ close :: rest) := by
  induction xs generalizing room with
  | nil => exact absurd nofun hsome
  | cons x xs ih =>
    obtain ⟨hx, hxs⟩ := List.forall_mem_cons.1 hgood
    obtain ⟨hx', hxs'⟩ := List.forall_mem_cons.1 hbad
    obtain ⟨hh, hhs⟩ := List.forall_mem_cons.1 hhead
    rw [commaList.eq_def, List.flatMap_cons, List.append_assoc, List.append_assoc,
      List.singleton_append]
    refine (eat_passes (hh.head? _)).seq_refuses ?_
    by_cases hg : good x
    · refine (hx hg _).refuses fun a _ => eat_reads.seq_refuses ?_
      cases room with
      | nil => exact fun s _ => ⟨_, rfl⟩
      | cons r room =>
        refine (ih hxs hxs' hhs (fun hall => hsome ?_) room).bind
        exact List.forall_mem_cons.2 ⟨hg, hall⟩
    · exact (hx' hg _).bind

/-- A list with a comma behind every item stops at the first item that does. -/
theorem listUntil_refuses {close : Token} {item : Parse α} {text : β → List Token}
    {good : β → Prop} {xs : List β}
    (hgood : ∀ x ∈ xs, good x → ∀ rest,
      Reads item (text x ++ Token.comma :: rest) (Token.comma :: rest) fun _ => True)
    (hbad : ∀ x ∈ xs, ¬ good x → ∀ rest, Refuses item (text x ++ Token.comma :: rest))
    (hhead : ∀ x ∈ xs, BeginsOther close (text x)) (hsome : ¬ ∀ x ∈ xs, good x) :
    Refuses (listUntil close item)
      (xs.flatMap (fun x => text x ++ [Token.comma]) ++ close :: rest) :=
  Refuses.get fun s _ => commaList_refuses hgood hbad hhead hsome s.tokens

end Parse

end SchemaLoom.Source
