/-
  What readers of JSON answer with.

  A reader that stops answers with nothing, so a property of all answers
  (`Answers`) goes through the shapes without regard to the text: those of an
  array have it if its items do, that of a record if it is there at the start
  and every field keeps it.

  * `Answers.optional`, `Answers.list`, `Answers.mapping`, `Answers.record`: the
    shapes;
  * `Answers.run`: the whole text.

  With what is read (`Takes`), these are the laws of the shapes.  A reader and the
  form that it reads (`Codes`) then go through whole texts: `Codes.read_back`.
-/
import SchemaLoom.Proofs.Json.Reading

namespace SchemaLoom.Json.Reader

variable {α β κ σ : Type} {P : α → Prop} {Q : β → Prop} {I : σ → Prop}

/-- What the reader answers with has the property, whatever the text. -/
def Answers (P : α → Prop) (r : Reader α) : Prop := ∀ c a c', r c = .ok (a, c') → P a

theorem answers_failHere (fault : Malformed) : Answers P (failHere fault) := nofun

theorem answers_failNext (fault : Malformed) : Answers P (failNext fault) := nofun

theorem answers_refuseHere (fault : DataError) : Answers P (refuseHere fault) := nofun

theorem answers_refuse (fault : DataError) : Answers P (refuse fault) := nofun

namespace Answers

theorem pure {a : α} (h : P a) : Answers P (Pure.pure a) := by
  intro c b c' hb
  cases hb
  exact h

theorem bind {r : Reader β} {f : β → Reader α} (hr : Answers Q r)
    (hf : ∀ b, Q b → Answers P (f b)) : Answers P (r >>= f) := by
  intro c a c' h
  obtain ⟨⟨b, d⟩, hb, h⟩ := bind_eq_ok.1 h
  exact hf b (hr c b d hb) d a c' h

/-- What comes before does not matter. -/
theorem after {r : Reader β} {f : β → Reader α} (hf : ∀ b, Answers P (f b)) :
    Answers P (r >>= f) :=
  bind (fun _ _ _ _ => trivial : Answers (fun _ => True) r) fun b _ => hf b

theorem nested {r : Reader α} (h : Answers P r) : Answers P (nested r) := by
  intro c a c' ha
  rw [Reader.nested] at ha
  split at ha
  · cases ha
  · obtain ⟨⟨b, d⟩, hb, ha⟩ := bind_eq_ok.1 ha
    cases ha
    exact h _ a d hb

theorem closing {r : Reader α} {close : Cursor → Cursor × Option Failure} (h : Answers P r) :
    Answers P (closing close r) := by
  intro c a c' ha
  rw [Reader.closing] at ha
  split at ha
  next b d hb =>
    split at ha
    · cases ha
      exact h c a d hb
    · cases ha
  next => cases ha
  next => cases ha

theorem inBrackets {r : Reader α} (h : Answers P r) : Answers P (inBrackets r) :=
  nested (closing (after fun _ => h))

theorem inBraces {r : Reader α} (h : Answers P r) : Answers P (inBraces r) :=
  nested (closing (after fun _ => h))

end Answers

theorem answers_mismatch (wanted : String) : Answers P (mismatch wanted) := by
  refine .after fun first => ?_
  split
  · exact answers_refuseHere _
  split
  · exact answers_refuseHere _
  refine .after fun v => ?_
  split
  · exact answers_refuseHere _
  · exact answers_failNext _

theorem answers_natural (limit : Nat) (wanted : String) :
    Answers (· ≤ limit) (natural limit wanted) := by
  refine .after fun first => ?_
  split
  · refine .after fun n => ?_
    split
    next k hk =>
      exact .pure (Number.le_of_inRange hk)
    next => exact answers_refuseHere _
  · exact answers_mismatch _

/-- What a name stands for is in the list of names. -/
theorem answers_name {names : List (String × α)} (h : ∀ p ∈ names, P p.2) :
    Answers P (name names) := by
  refine .after fun k => ?_
  split
  next a ha =>
    unfold namedBy at ha
    split at ha
    next b hb =>
      cases ha
      obtain ⟨before, after, rfl, -⟩ := List.lookup_eq_some_iff.1 hb
      exact .pure (h (k, a) List.mem_append_cons_self)
    next => cases ha
  next => exact answers_refuseHere _

namespace Answers

/-! ## Shapes -/

theorem optional {item : Reader α} (h : Answers P item) :
    Answers (fun o => ∀ a ∈ o, P a) (optional item) := by
  refine after fun next => ?_
  split
  · exact after fun _ => after fun _ => pure nofun
  · refine bind h fun a ha => pure ?_
    rintro _ ⟨⟩
    exact ha

theorem items {item : Reader α} (h : Answers P item) (fuel : Nat) (first : Bool) :
    Answers (fun as => ∀ a ∈ as, P a) (items item fuel first) := by
  induction fuel generalizing first with
  | zero => exact answers_failHere _
  | succ fuel ih =>
    refine after fun more => ?_
    split
    · exact bind h fun a ha => bind (ih false) fun as has =>
        pure (List.forall_mem_cons.2 ⟨ha, has⟩)
    · exact pure (by simp)

theorem list {item : Reader α} (h : Answers P item) :
    Answers (fun as => ∀ a ∈ as, P a) (list item) := by
  refine after fun first => ?_
  split
  · exact inBrackets (after fun c => items h _ _)
  · exact answers_mismatch _

/-- The items of an object have the property. -/
theorem mapping {key : Reader κ} {item : Reader α} (h : Answers P item) :
    Answers (fun ps => ∀ p ∈ ps, P p.2) (mapping key item) := by
  have hmembers : ∀ fuel first,
      Answers (fun ps => ∀ p ∈ ps, P p.2) (members key item fuel first) := by
    intro fuel
    induction fuel with
    | zero => exact fun _ => answers_failHere _
    | succ fuel ih =>
      refine fun first => after fun more => ?_
      split
      · exact after fun k => after fun _ => bind h fun a ha => bind (ih false) fun ps hps =>
          pure (List.forall_mem_cons.2 ⟨ha, hps⟩)
      · exact pure (by simp)
  refine after fun first => ?_
  split
  · exact inBraces (after fun c => hmembers _ _)
  · exact answers_mismatch _

section
variable {fields : List (Field Reader σ)} (hf : ∀ f ∈ fields, ∀ s, I s → Answers I (f.read s))
include hf

theorem recordMembers (fuel : Nat) (first : Bool) (seen : List String) {s : σ} (hs : I s) :
    Answers I (recordMembers fields fuel first seen s) := by
  induction fuel generalizing first seen s with
  | zero => exact answers_failHere _
  | succ fuel ih =>
    refine after fun more => ?_
    split
    · refine after fun k => ?_
      split
      · exact after fun _ => after fun _ => ih _ _ hs
      next f hfound =>
        split
        · exact answers_refuse _
        · have hread := hf f (List.mem_of_find?_eq_some hfound) s hs
          exact after fun _ => bind hread fun s' hs' => ih _ _ hs'
    · split
      · exact answers_refuse _
      · exact pure hs

theorem recordItems (wanted : String) (count taken : Nat) {s : σ} (hs : I s) :
    Answers I (recordItems wanted count fields taken s) := by
  induction fields generalizing taken s with
  | nil => exact pure hs
  | cons f fs ih =>
    have hfs : ∀ f ∈ fs, ∀ s, I s → Answers I (f.read s) := fun f hm => hf f (.tail _ hm)
    refine after fun more => ?_
    split
    · exact bind (hf f (.head _) s hs) fun s' hs' => ih hfs _ hs'
    split
    · exact ih hfs _ hs
    · exact answers_refuse _

/-- **A record has a property that its start has and that every field keeps.** -/
theorem record (wanted : String) {start : σ} (hs : I start) :
    Answers I (record wanted fields start) := by
  refine after fun first => ?_
  split
  · exact inBrackets (recordItems hf wanted _ 0 hs)
  split
  · exact inBraces (after fun c => recordMembers hf _ _ _ hs)
  · exact answers_mismatch _

end

/-! ## Texts -/

theorem run {r : Reader α} (h : Answers P r) {text : String} {a : α}
    (ha : Reader.run r text = .ok a) : P a := by
  rw [Reader.run] at ha
  dsimp only at ha
  split at ha
  next b c hb =>
    cases ha
    refine bind h (fun a hp => ?_) _ _ _ hb
    refine after fun next => ?_
    split
    · exact pure hp
    · exact answers_failNext _
  next => cases ha
  next => cases ha

end Answers

/-! ## The laws -/

instance : LawfulDecoder Reader where
  Takes := Takes
  takes_bind := Takes.bind
  takes_value := takes_value
  takes_string := takes_string _
  takes_boolean := takes_boolean
  takes_natural := takes_natural
  takes_optional := Takes.optional
  takes_items := Takes.list
  takes_record := Takes.record
  Answers := Answers
  answers_true := fun _ _ _ _ _ => trivial
  answers_pure := Answers.pure
  answers_bind := Answers.bind
  answers_refuse := answers_refuse
  answers_natural := answers_natural
  answers_optional := Answers.optional
  answers_list := Answers.list
  answers_record := fun hf wanted _ hs => Answers.record hf wanted hs

/-- The reader `r` and the form `f` belong together: what `r` answers with has the
    property `P`, and of all that has it `r` reads the form. -/
structure Codes (height : Nat) (P : α → Prop) (r : Reader α) (f : α → Value) : Prop where
  answers : LawfulDecoder.Answers P r
  takes : ∀ a, P a → LawfulDecoder.Takes height r (f a) a
  within : ∀ a, P a → Within height (f a)

namespace Codes

variable {height : Nat} {r : Reader α} {f : α → Value} {a : α} {text : String}

theorem list (h : Codes height P r f) : Codes (height + 1) (fun as => ∀ a ∈ as, P a)
    (Decoder.list r) (fun as => .array (as.map f)) where
  answers := LawfulDecoder.answers_list h.answers
  takes _ has := LawfulDecoder.takes_list fun a ha => h.takes a (has a ha)
  within _ has := within_array fun a ha => h.within a (has a ha)

/-- What a whole text is read as has the property. -/
theorem of_run (h : Codes height P r f) (ha : Reader.run r text = .ok a) : P a :=
  Answers.run h.answers ha

/-- **Both printed forms are read.** -/
theorem run_printed (h : Codes height P r f) (hd : height < depthLimit) (ha : P a) :
    Reader.run r (f a).compact = .ok a ∧ Reader.run r (f a).pretty = .ok a := by
  have htakes : Takes height r (f a) a := h.takes a ha
  have hexact : (f a).Exact := (h.within a ha).exact
  constructor
  · refine htakes.run hd ?_
    rw [Value.compact, String.toList_ofList]
    exact hexact.written_compact
  · refine htakes.run hd ?_
    rw [Value.pretty, String.toList_ofList]
    exact hexact.written_pretty 0

/-- **What texts stand for** is what has the property. -/
theorem exists_run_iff (h : Codes height P r f) (hd : height < depthLimit) :
    (∃ text, Reader.run r text = .ok a) ↔ P a :=
  ⟨fun ⟨_, ha⟩ => h.of_run ha, fun ha => ⟨_, (h.run_printed hd ha).1⟩⟩

/-- **What is read is read back** from both printed forms. -/
theorem read_back (h : Codes height P r f) (hd : height < depthLimit)
    (ha : Reader.run r text = .ok a) :
    Reader.run r (f a).compact = .ok a ∧ Reader.run r (f a).pretty = .ok a :=
  h.run_printed hd (h.of_run ha)

end Codes

end SchemaLoom.Json.Reader
