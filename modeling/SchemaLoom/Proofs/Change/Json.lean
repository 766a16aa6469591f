/-
  Changes, comparisons and policies are read back from their JSON form.

  What a text can hold of them (`Told`) are the defaults that are told by their own
  forms and the positions and counts that fit 64 bits; of counts by name also
  their order (`Counted`).

  * `ChangeDetails.codes`, `Change.codes`, `Comparison.codes`, `Policy.codes`: the
    readers and the forms belong together;
  * `changes_read_back`, `Comparison.read_back`, `Policy.read_back`: what is read is
    read back from both printed forms;
  * `Schema.compare_read_back`: so is the comparison of two schemas.
-/
import SchemaLoom.Change.Json
import SchemaLoom.Proofs.Change.Exact
import SchemaLoom.Proofs.Json.Buffered
import SchemaLoom.Proofs.Schema.Reading

namespace SchemaLoom

open Json (Value Decoder Field Fills LawfulDecoder Reader Buffered Within within_strings)
open Json.LawfulDecoder
open Json.Reader (maxUnsigned)

variable {m : Type → Type} [Decoder m] [LawfulDecoder m] {α β κ : Type} {height : Nat}

/-! ## Names -/

/-- The list holds all keys, and their names tell them apart. -/
structure Enumerates (name : κ → String) (all : List κ) : Prop where
  nodup : (all.map name).Nodup
  mem : ∀ k, k ∈ all

theorem EntityKind.enumerates : Enumerates name all := ⟨by decide, fun k => by cases k <;> decide⟩

theorem ChangeType.enumerates : Enumerates name all := ⟨by decide, fun t => by cases t <;> decide⟩

theorem ChangeCategory.enumerates : Enumerates name all :=
  ⟨by decide, fun c => by cases c <;> decide⟩

theorem Impact.enumerates : Enumerates name all := ⟨by decide, fun i => by cases i <;> decide⟩

section
variable {name : κ → String} {all : List κ}

theorem lookup_byName (h : (all.map name).Nodup) {k : κ} (hk : k ∈ all) :
    (byName name all).lookup (name k) = some k := by
  induction all with
  | nil => cases hk
  | cons a all ih =>
    obtain ⟨hnew, h⟩ := List.nodup_cons.1 h
    rw [byName, List.map_cons, List.lookup_cons]
    rcases List.mem_cons.1 hk with rfl | hk
    · rw [beq_self_eq_true]
    · have hne : name k ≠ name a := fun he => hnew (he ▸ List.mem_map_of_mem hk)
      rw [beq_eq_false_iff_ne.2 hne]
      exact ih h hk

theorem Enumerates.injective (h : Enumerates name all) : Function.Injective name :=
  fun a b hab => eq_of_name_eq h.nodup (h.mem a) (h.mem b) hab

theorem Enumerates.takes_variant (h : Enumerates name all) (k : κ) :
    Takes height (Reader.variant (byName name all)) (.string (name k)) k :=
  Reader.takes_variant (lookup_byName h.nodup (h.mem k))

end

/-! ## Positions -/

theorem takes_position {n : Nat} (h : n ≤ maxUnsigned) :
    Takes height (Json.position : m Nat) (.nat n) n :=
  takes_natural "usize" h (by decide)

theorem answers_position : Answers (· ≤ maxUnsigned) (Json.position : m Nat) :=
  answers_natural _ "usize"

/-! ## Targets -/

theorem ChangeTarget.takes_decode (t : ChangeTarget) :
    Takes (height + 1) ChangeTarget.decode t.toJson t := by
  refine takes_record (by decide) ?_
  refine .given (takes_bind (EntityKind.enumerates.takes_variant t.kind) rfl) ?_
  refine .given (takes_bind (takes_string t.entity) rfl) (fills_append_nil ?_)
  exact fills_optional none (by simp) rfl rfl takes_text Option.map_eq_none_iff.1 .done

theorem ChangeTarget.within_toJson (t : ChangeTarget) : Within (height + 1) t.toJson := by
  refine .object ?_
  simp only [List.forall_mem_cons]
  exact ⟨.string _, .string _, within_optionalMap .string t.member⟩

/-! ## Details -/

theorem takes_definition {definition : Buffered α} {wanted : String} {start a : α} {v : Value}
    (h : Takes height definition v a) :
    Takes (height + 1) (decodeDefinition wanted definition start) (.object [("definition", v)]) a :=
  takes_record (by simp) (.given h .done)

theorem takes_pair {wanted first second : String} {a : Buffered α} {b : Buffered β}
    {start : α × β} {v w : Value} {x : α} {y : β} (hne : first ≠ second)
    (ha : Takes height a v x) (hb : Takes height b w y) :
    Takes (height + 1) (decodePair wanted first second a b start)
      (.object [(first, v), (second, w)]) (x, y) :=
  takes_record (by simpa using hne)
    (.given (takes_bind ha rfl) (.given (takes_bind hb rfl) .done))

theorem answers_definition {definition : Buffered α} {P : α → Prop} (wanted : String) {start : α}
    (h : Answers P definition) (hs : P start) :
    Answers P (decodeDefinition wanted definition start) :=
  answers_record (by simpa using fun _ _ => h) wanted hs

theorem answers_pair {a : Buffered α} {b : Buffered β} {P : α → Prop} {Q : β → Prop}
    (wanted first second : String) {start : α × β} (ha : Answers P a) (hb : Answers Q b)
    (hs : P start.1 ∧ Q start.2) :
    Answers (fun p => P p.1 ∧ Q p.2) (decodePair wanted first second a b start) := by
  refine answers_record ?_ wanted hs
  simp only [List.forall_mem_cons]
  refine ⟨fun p hp => ?_, fun p hp => ?_, by simp⟩
  · exact answers_bind ha fun x hx => answers_pure ⟨hx, hp.2⟩
  · exact answers_bind hb fun y hy => answers_pure ⟨hp.1, hy⟩

namespace ChangeDetails

/-- The definitions are told by their JSON forms, and the position fits 64 bits. -/
def Told : ChangeDetails → Prop
  | enum _ => True
  | enumValue _ position => position ≤ maxUnsigned
  | helper definition => definition.Told
  | table definition => definition.Told
  | column definition position => definition.Told ∧ position ≤ maxUnsigned
  | helperReference _ position => position ≤ maxUnsigned
  | compositePrimaryKey _ _ => True
  | dbName _ _ => True
  | columnChange old new => old.Told ∧ new.Told

/-- Each kind of details has a decoder that reads their other members. -/
theorem Told.exists_decoder {d : ChangeDetails} (h : d.Told) :
    ∃ b, decoders.lookup d.kindName = some b ∧ Takes 6 b (.object d.members) d := by
  cases d with
  | enum e => exact ⟨_, rfl, takes_bind (takes_definition e.takes_decode) rfl⟩
  | enumValue value position =>
    exact ⟨_, rfl, takes_bind (takes_pair (by decide) (takes_string _) (takes_position h)) rfl⟩
  | helper g => exact ⟨_, rfl, takes_bind (takes_definition (HelperDef.Told.takes_decode h)) rfl⟩
  | table t => exact ⟨_, rfl, takes_bind (takes_definition (TableDef.Told.takes_decode h)) rfl⟩
  | column c position =>
    exact ⟨_, rfl, takes_bind (takes_pair (by decide) h.1.takes_decode (takes_position h.2)) rfl⟩
  | helperReference spread position =>
    exact ⟨_, rfl, takes_bind (takes_pair (by decide) (takes_string _) (takes_position h)) rfl⟩
  | compositePrimaryKey old new =>
    exact ⟨_, rfl, takes_bind (takes_pair (by decide) (takes_strings _) (takes_strings _)) rfl⟩
  | dbName old new =>
    exact ⟨_, rfl, takes_bind (takes_pair (by decide) (takes_string _) (takes_string _)) rfl⟩
  | columnChange old new =>
    exact ⟨_, rfl, takes_bind (takes_pair (by decide) h.1.takes_decode h.2.takes_decode) rfl⟩

/-- The other members do not repeat the kind, and nest five levels at most. -/
theorem Told.within_members {d : ChangeDetails} (h : d.Told) :
    ∀ m ∈ d.members, m.1 ≠ "kind" ∧ Within 5 m.2 := by
  cases d with
  | enum e => simpa [members] using e.within_toJson
  | enumValue value position => simpa [members, Within.string] using Within.natural h
  | helper g => simpa [members] using g.within_toJson
  | table t => simpa [members] using t.within_toJson
  | column c position => simpa [members] using And.intro c.within_toJson (Within.natural h.2)
  | helperReference spread position => simpa [members, Within.string] using Within.natural h
  | compositePrimaryKey old new => simp [members, within_strings]
  | dbName old new => simp [members, Within.string]
  | columnChange old new => simpa [members] using And.intro old.within_toJson new.within_toJson

theorem Told.takes_decode {d : ChangeDetails} (h : d.Told) : Takes 6 decode d.toJson d := by
  obtain ⟨b, hb, htakes⟩ := h.exists_decoder
  exact Reader.Takes.within (Reader.takes_tagged hb h.within_members) htakes

theorem Told.within_toJson {d : ChangeDetails} (h : d.Told) : Within 6 d.toJson :=
  .object (List.forall_mem_cons.2 ⟨.string _, fun m hm => (h.within_members m hm).2⟩)

theorem answers_decoders : ∀ p ∈ decoders, Answers Told p.2 := by
  have hcolumn : Column.Told { name := "" } := nofun
  simp only [decoders, List.forall_mem_cons]
  refine ⟨?enum, ?enumValue, ?helper, ?table, ?column, ?helperReference, ?compositePrimaryKey,
    ?dbName, ?columnChange, by simp⟩
  case enum => exact answers_after fun e => answers_pure trivial
  case enumValue =>
    exact answers_bind (answers_pair _ _ _ (answers_true _) answers_position ⟨trivial, by simp⟩)
      fun p hp => answers_pure hp.2
  case helper =>
    exact answers_bind (answers_definition _ HelperDef.answers_decode (by simp [HelperDef.Told]))
      fun g hg => answers_pure hg
  case table =>
    exact answers_bind (answers_definition _ TableDef.answers_decode (by simp [TableDef.Told]))
      fun t ht => answers_pure ht
  case column =>
    exact answers_bind (answers_pair _ _ _ Column.answers_decode answers_position
      ⟨hcolumn, by simp⟩) fun p hp => answers_pure hp
  case helperReference =>
    exact answers_bind (answers_pair _ _ _ (answers_true _) answers_position ⟨trivial, by simp⟩)
      fun p hp => answers_pure hp.2
  case compositePrimaryKey => exact answers_after fun p => answers_pure trivial
  case dbName => exact answers_after fun p => answers_pure trivial
  case columnChange =>
    exact answers_bind (answers_pair _ _ _ Column.answers_decode Column.answers_decode
      ⟨hcolumn, hcolumn⟩) fun p hp => answers_pure hp

theorem answers_decode : Answers Told decode :=
  Reader.Answers.within (Reader.answers_tagged answers_decoders)

/-- **The reader of details and their form belong together.** -/
theorem codes : Reader.Codes 6 Told decode toJson where
  answers := answers_decode
  takes _ h := h.takes_decode
  within _ h := h.within_toJson

/-- The kind may stand behind the other members; it is written in front of them. -/
example :
    let text := "\x7b\"from\": \"a\", \"to\": \"b\", \"kind\": \"db_name\"\x7d"
    (Reader.run decode text).toOption = some (dbName "a" "b") := by
  intro text
  rw [show text = String.ofList _ from rfl, Reader.run, Json.Cursor.ofString_ofList]
  decide +kernel

end ChangeDetails

/-! ## Changes -/

/-- The details of the change are told by their JSON form. -/
def Change.Told (c : Change) : Prop := c.details.Told

/-- **The reader of changes and their form belong together.** -/
theorem Change.codes : Reader.Codes 7 Told decode toJson where
  answers := by
    refine answers_record ?_ _ (by simp [Told, Change.ofType, ChangeDetails.Told])
    simp only [List.forall_mem_cons]
    refine ⟨fun c hc => answers_after fun _ => answers_pure hc,
      fun c hc => answers_after fun _ => answers_pure hc,
      fun c hc => answers_after fun _ => answers_pure hc,
      fun c hc => answers_after fun _ => answers_pure hc,
      fun c hc => answers_after fun _ => answers_pure hc, fun c hc => ?_, by simp⟩
    exact answers_bind ChangeDetails.codes.answers fun d hd => answers_pure hd
  takes c hc := by
    refine takes_record (by decide) ?_
    refine .given (takes_bind (ChangeType.enumerates.takes_variant c.type) rfl) ?_
    refine .given (takes_bind (ChangeCategory.enumerates.takes_variant c.category) rfl) ?_
    refine .given (takes_bind (Impact.enumerates.takes_variant c.impact) rfl) ?_
    refine .given (takes_bind c.target.takes_decode rfl) ?_
    refine .given (takes_bind (takes_string c.description) rfl) ?_
    exact .given (takes_bind (ChangeDetails.codes.takes _ hc) rfl) .done
  within c hc := by
    refine .object ?_
    simp only [List.forall_mem_cons]
    exact ⟨.string _, .string _, .string _, c.target.within_toJson, .string _,
      ChangeDetails.codes.within _ hc, by simp⟩

/-- **Changes that are read are read back from their JSON form**, compact or
    pretty. -/
theorem changes_read_back {text : String} {changes : List Change}
    (h : Reader.run (Decoder.list Change.decode) text = .ok changes) :
    Reader.run (Decoder.list Change.decode) (changesJson changes).compact = .ok changes ∧
      Reader.run (Decoder.list Change.decode) (changesJson changes).pretty = .ok changes :=
  Change.codes.list.read_back (by decide) h

/-! ## Summaries -/

section
variable {name : κ → String} {all : List κ} {counts : List (κ × Nat)}

/-- The counts are in the order of the keys, a key has one count at most, and the
    counts fit 64 bits. -/
def Counted (all : List κ) (counts : List (κ × Nat)) : Prop :=
  ∃ count : κ → Option Nat, (∀ k, ∀ n ∈ count k, n ≤ maxUnsigned) ∧
    counts = all.filterMap fun k => (count k).map fun n => (k, n)

theorem counted_nil : Counted all [] := ⟨fun _ => none, nofun, by simp⟩

theorem Counted.le (h : Counted all counts) : ∀ p ∈ counts, p.2 ≤ maxUnsigned := by
  obtain ⟨count, hle, rfl⟩ := h
  intro p hp
  obtain ⟨k, -, hk⟩ := List.mem_filterMap.1 hp
  obtain ⟨n, hn, rfl⟩ := Option.map_eq_some_iff.1 hk
  exact hle k n hn

theorem Counted.within (h : Counted all counts) : Within (height + 1) (countsJson name counts) :=
  .object (List.forall_mem_map.2 fun p hp => .natural (h.le p hp))

/-- The counts that are not zero. -/
theorem counted_filter (all : List κ) {count : κ → Nat} (h : ∀ k, count k ≤ maxUnsigned) :
    Counted all ((all.map fun k => (k, count k)).filter fun p => p.2 ≠ 0) := by
  refine ⟨fun k => if count k = 0 then none else some (count k), fun k n hn => ?_, ?_⟩
  · obtain ⟨-, hn⟩ := Option.ite_none_left_eq_some.1 hn
    exact Option.some.inj hn ▸ h k
  · rw [← List.filterMap_eq_filter, List.filterMap_map]
    refine List.filterMap_congr fun k _ => ?_
    by_cases hk : count k = 0
    · simp [Option.guard, hk]
    · simp [Option.guard, hk]

/-- What is counted among some changes. -/
theorem counted_tally [DecidableEq κ] (all : List κ) (key : Change → κ) {changes : List Change}
    (h : changes.length ≤ maxUnsigned) : Counted all (tally all key changes) :=
  counted_filter all fun _ => Nat.le_trans List.countP_le_length h

theorem answers_counts : Answers (Counted all) (decodeCounts name all) := by
  refine answers_bind (Reader.Answers.mapping (answers_position (m := Reader))) fun ps hps => ?_
  refine answers_pure ⟨fun k => (ps.reverse.find? fun p => name p.1 == name k).map Prod.snd, ?_, ?_⟩
  · intro k n hn
    obtain ⟨p, hp, rfl⟩ := Option.map_eq_some_iff.1 hn
    exact hps p (List.mem_reverse.1 (List.mem_of_find?_eq_some hp))
  · simp only [Option.map_map, Function.comp_def]

/-- The count of a key is found by its name. -/
theorem find?_counts (h : Enumerates name all) (count : κ → Option Nat) (k : κ) :
    ((all.filterMap fun k => (count k).map fun n => (k, n)).reverse.find?
      fun p => name p.1 == name k).map (fun p => (k, p.2)) = (count k).map fun n => (k, n) := by
  have hmem : ∀ p, p ∈ (all.filterMap fun k => (count k).map fun n => (k, n)).reverse ↔
      count p.1 = some p.2 := by
    intro p
    simp only [List.mem_reverse, List.mem_filterMap, Option.map_eq_some_iff]
    constructor
    · rintro ⟨k, -, n, hn, rfl⟩
      exact hn
    · exact fun hp => ⟨p.1, h.mem p.1, p.2, hp, rfl⟩
  cases hn : count k with
  | none =>
    refine Option.map_eq_none_iff.2 (find?_name_eq_none.2 fun hk => ?_)
    obtain ⟨p, hp, hname⟩ := List.mem_map.1 hk
    rw [hmem, h.injective hname, hn] at hp
    cases hp
  | some n =>
    obtain ⟨p, hp, hname, hfind⟩ := exists_find?_name (fun p => name p.1) ((hmem (k, n)).2 hn)
    rw [hmem, h.injective hname, hn] at hp
    rw [hfind, Option.map_some, Option.map_some, Option.some.inj hp]

theorem Counted.takes (h : Enumerates name all) (hc : Counted all counts) :
    Takes (height + 1) (decodeCounts name all) (countsJson name counts) counts := by
  have hmapping : Takes (height + 1) (Reader.mapping (Reader.variant (byName name all))
      Json.position) (countsJson name counts) counts := by
    refine Reader.Takes.mapping (List.forall₂_map_left_iff.2 (List.forall₂_same.2 fun p hp => ?_))
    exact ⟨Reader.takesName_variant (lookup_byName h.nodup (h.mem p.1)),
      takes_position (m := Reader) (hc.le p hp)⟩
  obtain ⟨count, -, rfl⟩ := hc
  exact takes_bind hmapping (by simp only [find?_counts h])

end

/-- The counts of the summary are such as a text holds. -/
structure ChangeSummary.Told (s : ChangeSummary) : Prop where
  total : s.total ≤ maxUnsigned
  byCategory : Counted ChangeCategory.all s.byCategory
  byImpact : Counted Impact.all s.byImpact
  byType : Counted ChangeType.all s.byType

theorem ChangeSummary.answers_decode : Answers Told decode := by
  refine answers_record ?_ _ ⟨by simp, counted_nil, counted_nil, counted_nil⟩
  simp only [List.forall_mem_cons]
  refine ⟨fun s hs => ?_, fun s hs => ?_, fun s hs => ?_, fun s hs => ?_, by simp⟩
  · exact answers_bind answers_position fun n hn =>
      answers_pure ⟨hn, hs.byCategory, hs.byImpact, hs.byType⟩
  · exact answers_bind answers_counts fun ps hps =>
      answers_pure ⟨hs.total, hps, hs.byImpact, hs.byType⟩
  · exact answers_bind answers_counts fun ps hps =>
      answers_pure ⟨hs.total, hs.byCategory, hps, hs.byType⟩
  · exact answers_bind answers_counts fun ps hps =>
      answers_pure ⟨hs.total, hs.byCategory, hs.byImpact, hps⟩

theorem ChangeSummary.Told.takes_decode {s : ChangeSummary} (h : s.Told) :
    Takes (height + 2) ChangeSummary.decode s.toJson s := by
  refine takes_record (by decide) ?_
  refine .given (takes_bind (takes_position h.total) rfl) ?_
  refine .given (takes_bind (h.byCategory.takes ChangeCategory.enumerates) rfl) ?_
  refine .given (takes_bind (h.byImpact.takes Impact.enumerates) rfl) ?_
  exact .given (takes_bind (h.byType.takes ChangeType.enumerates) rfl) .done

theorem ChangeSummary.Told.within_toJson {s : ChangeSummary} (h : s.Told) :
    Within (height + 2) s.toJson := by
  refine .object ?_
  simp only [List.forall_mem_cons]
  exact ⟨.natural h.total, h.byCategory.within, h.byImpact.within, h.byType.within, by simp⟩

/-! ## Comparisons -/

theorem CanApply.takes_decode (c : CanApply) : Takes (height + 1) CanApply.decode c.toJson c :=
  takes_record (by decide) (.given (takes_bind (takes_boolean _) rfl)
    (.given (takes_bind (takes_boolean _) rfl) (.given (takes_bind (takes_boolean _) rfl) .done)))

theorem CanApply.within_toJson (c : CanApply) : Within (height + 1) c.toJson :=
  .object (by simp [Within.bool])

namespace Comparison

/-- The changes and the counts are told by their JSON forms. -/
structure Told (c : Comparison) : Prop where
  changes : ∀ d ∈ c.changes, d.Told
  summary : c.summary.Told

/-- The comparison that some changes make is told if they are. -/
theorem told_ofChanges {changes : List Change} (h : ∀ c ∈ changes, c.Told)
    (hl : changes.length ≤ maxUnsigned) : (ofChanges changes).Told where
  changes := h
  summary := ⟨hl, counted_tally _ _ hl, counted_tally _ _ hl, counted_tally _ _ hl⟩

theorem answers_decode : Answers Told decode := by
  refine answers_record ?_ _ ?_
  · simp only [List.forall_mem_cons]
    refine ⟨fun c hc => ?_, fun c hc => ?_,
      fun c hc => answers_after fun _ => answers_pure ⟨hc.changes, hc.summary⟩,
      fun c hc => answers_after fun _ => answers_pure ⟨hc.changes, hc.summary⟩, by simp⟩
    · exact answers_bind Change.codes.list.answers fun cs hcs => answers_pure ⟨hcs, hc.summary⟩
    · exact answers_bind ChangeSummary.answers_decode fun s hs => answers_pure ⟨hc.changes, hs⟩
  · exact told_ofChanges (List.forall_mem_nil _) (Nat.zero_le _)

/-- **The reader of comparisons and their form belong together.** -/
theorem codes : Reader.Codes 9 Told decode toJson where
  answers := answers_decode
  takes c hc := by
    refine takes_record (by decide) ?_
    refine .given (takes_bind (Change.codes.list.takes _ hc.changes) rfl) ?_
    refine .given (takes_bind hc.summary.takes_decode rfl) ?_
    refine .given (takes_bind (takes_strings _) rfl) ?_
    exact .given (takes_bind c.canApply.takes_decode rfl) .done
  within c hc := by
    refine .object ?_
    simp only [List.forall_mem_cons]
    exact ⟨Change.codes.list.within _ hc.changes, hc.summary.within_toJson, within_strings _,
      c.canApply.within_toJson, by simp⟩

/-- **A comparison that is read is read back from its JSON form**, compact or
    pretty. -/
theorem read_back {text : String} {c : Comparison} (h : Reader.run decode text = .ok c) :
    Reader.run decode c.toJson.compact = .ok c ∧ Reader.run decode c.toJson.pretty = .ok c :=
  codes.read_back (by decide) h

end Comparison

/-! ## What a comparison tells -/

theorem told_absentFrom {name : α → String} {P : α → Prop} {xs : List α} (ys : List α)
    (hx : ∀ x ∈ xs, P x) (hl : xs.length ≤ maxUnsigned) :
    ∀ p ∈ absentFrom name ys xs, P p.1 ∧ p.2 ≤ maxUnsigned := by
  intro p hp
  have hzip := (mem_absentFrom.1 hp).1
  have hi := List.snd_lt_of_mem_zipIdx hzip
  exact ⟨hx _ (List.fst_mem_of_mem_zipIdx hzip), by omega⟩

theorem told_columns {kind : EntityKind} {entity : String} {added removed : ChangeType}
    {old new : List Column} (ho : ∀ c ∈ old, c.Told) (hn : ∀ c ∈ new, c.Told)
    (lo : old.length ≤ maxUnsigned) (ln : new.length ≤ maxUnsigned) :
    (∀ c ∈ memberColumnChanges kind entity added removed old new, c.Told) ∧
      ∀ c ∈ pairedColumnChanges kind entity old new, c.Told := by
  simp only [memberColumnChanges, pairedColumnChanges, columnChanges, List.forall_mem_append,
    List.forall_mem_map, List.forall_mem_flatMap]
  refine ⟨⟨fun p hp => ?_, fun p hp => told_absentFrom new ho lo p hp⟩, fun p hp _ _ => ?_⟩
  · rw [Change.Told, columnAddition_details]
    exact told_absentFrom old hn ln p hp
  · obtain ⟨hfind, hmem⟩ := of_mem_paired hp
    exact ⟨ho _ (List.mem_of_find?_eq_some hfind), hn _ hmem⟩

/-- Names that are added or removed. -/
theorem told_names {change : String × Nat → Change} {old new : List String}
    (h : ∀ p, p.2 ≤ maxUnsigned → (change p).Told) (hl : new.length ≤ maxUnsigned) :
    ∀ c ∈ (absentFrom id old new).map change, c.Told :=
  List.forall_mem_map.2 fun p hp =>
    h p (told_absentFrom (P := fun _ => True) old (fun _ _ => trivial) hl p hp).2

theorem told_entityChanges {kind : EntityKind} {label : String} {added removed : ChangeType}
    {name : α → String} {details : α → ChangeDetails} {inside : α → α → List Change}
    {old new : List α} {P : α → Prop} (hd : ∀ a, P a → (details a).Told)
    (hi : ∀ o n, P o → P n → ∀ c ∈ inside o n, c.Told) (ho : ∀ o ∈ old, P o)
    (hn : ∀ n ∈ new, P n) :
    ∀ c ∈ entityChanges kind label added removed name details inside old new, c.Told := by
  simp only [entityChanges, List.forall_mem_append, List.forall_mem_map, List.forall_mem_flatMap]
  refine ⟨⟨fun p hp => hd _ (hn _ ?_), fun p hp => hd _ (ho _ ?_)⟩, fun p hp => ?_⟩
  · exact List.fst_mem_of_mem_zipIdx (mem_absentFrom.1 hp).1
  · exact List.fst_mem_of_mem_zipIdx (mem_absentFrom.1 hp).1
  · obtain ⟨hfind, hmem⟩ := of_mem_paired hp
    exact hi _ _ (ho _ (List.mem_of_find?_eq_some hfind)) (hn _ hmem)

/-- The helper is told by its JSON form, and 64 bits can count its columns. -/
structure HelperDef.Countable (h : HelperDef) : Prop where
  told : h.Told
  columns : h.columns.length ≤ maxUnsigned

/-- The table is told by its JSON form, and 64 bits can count its columns and the
    helpers that it spreads. -/
structure TableDef.Countable (t : TableDef) : Prop where
  told : t.Told
  columns : t.columns.length ≤ maxUnsigned
  references : t.helperReferences.length ≤ maxUnsigned

/-- The entities of the schema are told by their JSON forms, and 64 bits can count
    their parts. -/
structure Schema.Countable (s : Schema) : Prop where
  enums : ∀ e ∈ s.enums, e.values.length ≤ maxUnsigned
  helpers : ∀ h ∈ s.helpers, h.Countable
  tables : ∀ t ∈ s.tables, t.Countable

theorem told_valueChanges (o n : EnumDef) (ho : o.values.length ≤ maxUnsigned)
    (hn : n.values.length ≤ maxUnsigned) : ∀ c ∈ valueChanges o n, c.Told :=
  List.forall_mem_append.2 ⟨told_names (fun _ => id) hn, told_names (fun _ => id) ho⟩

theorem told_helperChanges (o n : HelperDef) (ho : o.Countable) (hn : n.Countable) :
    ∀ c ∈ helperChanges o n, c.Told := by
  obtain ⟨hmember, hpaired⟩ := told_columns ho.told hn.told ho.columns hn.columns
  exact List.forall_mem_append.2 ⟨hmember, hpaired⟩

theorem told_tableChanges (o n : TableDef) (ho : o.Countable) (hn : n.Countable) :
    ∀ c ∈ tableChanges o n, c.Told := by
  obtain ⟨hmember, hpaired⟩ := told_columns ho.told hn.told ho.columns hn.columns
  have hreferences : ∀ c ∈ helperReferenceChanges o n, c.Told :=
    List.forall_mem_append.2
      ⟨told_names (fun _ => id) hn.references, told_names (fun _ => id) ho.references⟩
  have hkey : ∀ c ∈ compositeKeyChange o n, c.Told := by
    rw [compositeKeyChange]
    split
    · exact List.forall_mem_nil _
    · exact List.forall_mem_singleton.2 trivial
  have hname : ∀ c ∈ dbNameChange o n, c.Told := by
    rw [dbNameChange]
    split
    · exact List.forall_mem_nil _
    · exact List.forall_mem_singleton.2 trivial
  simp only [tableChanges, List.forall_mem_append]
  exact ⟨⟨⟨⟨hmember, hreferences⟩, hkey⟩, hname⟩, hpaired⟩

/-- The changes between two schemas are told by their JSON forms. -/
theorem Schema.Countable.told_changesTo {old new : Schema} (ho : old.Countable)
    (hn : new.Countable) : ∀ c ∈ old.changesTo new, c.Told := by
  simp only [changesTo, List.forall_mem_append]
  refine ⟨⟨?enums, ?helpers⟩, ?tables⟩
  case enums => exact told_entityChanges (fun _ _ => trivial) told_valueChanges ho.enums hn.enums
  case helpers =>
    exact told_entityChanges (fun _ hg => hg.told) told_helperChanges ho.helpers hn.helpers
  case tables =>
    exact told_entityChanges (fun _ ht => ht.told) told_tableChanges ho.tables hn.tables

/-- **The comparison of two schemas is read back from its JSON form**, compact or
    pretty, if 64 bits can count their lists and the changes. -/
theorem Schema.compare_read_back {old new : Schema} (ho : old.Countable) (hn : new.Countable)
    (hl : (old.changesTo new).length ≤ maxUnsigned) :
    Reader.run Comparison.decode (old.compare new).toJson.compact = .ok (old.compare new) ∧
      Reader.run Comparison.decode (old.compare new).toJson.pretty = .ok (old.compare new) :=
  Comparison.codes.run_printed (by decide) (Comparison.told_ofChanges (ho.told_changesTo hn) hl)

/-! ## Policies -/

namespace Policy

/-- **The reader of policies and their form belong together.** -/
theorem codes : Reader.Codes 1 (fun _ => True) decode toJson where
  answers := answers_true _
  takes p _ := takes_record (by decide) (.given (takes_bind (takes_boolean _) rfl)
    (.given (takes_bind (takes_boolean _) rfl) (.given (takes_bind (takes_boolean _) rfl) .done)))
  within p _ := .object (by simp [Within.bool])

/-- **Every policy is read back from its JSON form**, compact or pretty. -/
theorem read_back (p : Policy) :
    Reader.run decode p.toJson.compact = .ok p ∧ Reader.run decode p.toJson.pretty = .ok p :=
  codes.run_printed (by decide) trivial

end Policy

end SchemaLoom
