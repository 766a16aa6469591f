/-
  What two schemas with the same fingerprint have in common.

  A fingerprint is a digest of the text of the canonical form, its entities in
  the order of their names.  If the two texts do not collide
  (`Schema.NoCollision`), the fingerprints are the same exactly if the canonical
  forms are, up to the order of entities and to the spelling of calls in defaults.

  * `Digest.hexText_injective`, `utf8_injective`: bytes and their texts;
  * `sortByName_eq_iff`: lists in the order of their names;
  * `Schema.SameEntities.fingerprinted`, `Schema.fingerprint_canonical`: what a
    fingerprint does not depend on;
  * `Schema.fingerprint_eq_iff`: fingerprints.
-/
import SchemaLoom.Proofs.Project.Entities
import SchemaLoom.Proofs.Schema.Json
import SchemaLoom.Schema.Fingerprint

namespace SchemaLoom

/-! ## Bytes -/

theorem hexDigit_inj {d e : Nat} (hd : d < 16) (he : e < 16)
    (h : Text.hexDigit d = Text.hexDigit e) : d = e := by
  have hvalue := Json.hexValue?_hexDigit d hd
  rw [h, Json.hexValue?_hexDigit e he] at hvalue
  exact (Option.some.inj hvalue).symm

theorem Digest.hexText_injective : Function.Injective Digest.hexText := by
  intro as bs h
  induction as generalizing bs with
  | nil =>
    cases bs with
    | nil => rfl
    | cons b bs => simp [hexText] at h
  | cons a as ih =>
    cases bs with
    | nil => simp [hexText] at h
    | cons b bs =>
      have h := String.ofList_injective h
      simp only [List.flatMap_cons, List.cons_append, List.nil_append, List.cons.injEq] at h
      obtain ⟨hhigh, hlow, hrest⟩ := h
      have ha := a.toNat_lt
      have hb := b.toNat_lt
      have hhigh := hexDigit_inj (by omega) (by omega) hhigh
      have hlow := hexDigit_inj (by omega) (by omega) hlow
      have hab : a.toNat = b.toNat := by omega
      rw [UInt8.toNat_inj.1 hab, ih (congrArg String.ofList hrest)]

theorem toList_loop_eq (bytes : ByteArray) (i : Nat) (done : List UInt8) :
    ByteArray.toList.loop bytes i done = done.reverse ++ bytes.data.toList.drop i := by
  fun_induction ByteArray.toList.loop bytes i done with
  | case1 i done hi ih =>
    have hlength : i < bytes.data.toList.length := by simpa using hi
    have hget : bytes.get! i = bytes.data.toList[i] := by
      show bytes.data[i]! = _
      rw [getElem!_pos bytes.data i (by simpa using hlength)]
      rfl
    rw [ih, List.drop_eq_getElem_cons hlength, hget, List.reverse_cons, List.append_assoc,
      List.singleton_append]
  | case2 i done hi =>
    have hlength : bytes.data.toList.length ≤ i := by simpa using hi
    rw [List.drop_eq_nil_of_le hlength, List.append_nil]

/-- A text is told by its bytes. -/
theorem utf8_injective : Function.Injective fun text : String => text.toUTF8.toList := by
  intro s t h
  simp only [ByteArray.toList, toList_loop_eq, List.reverse_nil, List.nil_append,
    List.drop_zero] at h
  exact String.toByteArray_inj.1 (ByteArray.ext (Array.toList_inj.1 h))

/-! ## The order of names -/

section
open Schema
variable {α : Type} {name : α → String} {xs ys : List α}

theorem sortByName_perm (name : α → String) (xs : List α) : (sortByName name xs).Perm xs :=
  List.mergeSort_perm _ _

theorem map_sortByName {f : α → α} (hf : ∀ x, name (f x) = name x) :
    (sortByName name xs).map f = sortByName name (xs.map f) :=
  List.map_mergeSort fun x _ y _ => by rw [hf, hf]

theorem pairwise_sortByName (name : α → String) (xs : List α) :
    (sortByName name xs).Pairwise fun x y => name x ≤ name y := by
  have h : (sortByName name xs).Pairwise fun x y => (!decide (name y < name x)) = true := by
    refine List.pairwise_mergeSort (fun x y z hxy hyz => ?_) (fun x y => ?_) xs
    · rw [Bool.not_eq_true', decide_eq_false_iff_not, String.not_lt] at hxy hyz ⊢
      exact String.le_trans hxy hyz
    · rw [Bool.or_eq_true, Bool.not_eq_true', Bool.not_eq_true', decide_eq_false_iff_not,
        decide_eq_false_iff_not, String.not_lt, String.not_lt]
      exact String.le_total _ _
  refine h.imp fun hxy => ?_
  rwa [Bool.not_eq_true', decide_eq_false_iff_not, String.not_lt] at hxy

/-- **Entities with names of their own are in one order only.** -/
theorem sortByName_eq_iff (hn : (xs.map name).Nodup) :
    sortByName name xs = sortByName name ys ↔ xs.Perm ys := by
  constructor
  · intro h
    exact (sortByName_perm name xs).symm.trans (h ▸ sortByName_perm name ys)
  · intro h
    have hp : (sortByName name xs).Perm (sortByName name ys) :=
      (sortByName_perm name xs).trans (h.trans (sortByName_perm name ys).symm)
    refine List.Perm.eq_of_pairwise ?_ (pairwise_sortByName name xs) (pairwise_sortByName name ys) hp
    intro x y hx hy hxy hyx
    have hx := (sortByName_perm name xs).mem_iff.1 hx
    have hy := h.mem_iff.2 ((sortByName_perm name ys).mem_iff.1 hy)
    exact eq_of_name_eq hn hx hy (String.le_antisymm hxy hyx)

end

/-! ## Fingerprints -/

namespace Schema

variable {r s : Schema}

/-- The bytes whose digest is the fingerprint. -/
def serialized (s : Schema) : List UInt8 := s.fingerprinted.toJson.compact.toUTF8.toList

/-- The bytes of the two schemas have different digests if they are different. -/
def NoCollision (r s : Schema) : Prop :=
  Digest.sha256 r.serialized = Digest.sha256 s.serialized → r.serialized = s.serialized

theorem fingerprint_eq_iff_serialized (hd : r.NoCollision s) :
    r.fingerprint = s.fingerprint ↔ r.serialized = s.serialized := by
  constructor
  · exact fun h => hd (Digest.hexText_injective h)
  · intro h
    rw [serialized, serialized] at h
    rw [fingerprint, fingerprint, h]

theorem serialized_eq_iff :
    r.serialized = s.serialized ↔ r.fingerprinted.spelledOut = s.fingerprinted.spelledOut := by
  rw [← compact_eq_iff]
  exact utf8_injective.eq_iff

/-- The canonical forms that a fingerprint tells apart. -/
theorem fingerprinted_eq_iff (he : (r.enums.map EnumDef.name).Nodup)
    (hh : (r.helpers.map HelperDef.name).Nodup) (ht : (r.tables.map TableDef.name).Nodup) :
    r.fingerprinted.spelledOut = s.fingerprinted.spelledOut ↔
      r.canonical.spelledOut.SameEntities s.canonical.spelledOut := by
  have hhelpers : ∀ h : HelperDef, h.spelledOut.name = h.name := fun _ => rfl
  have htables : ∀ t : TableDef, t.spelledOut.name = t.name := fun _ => rfl
  have hform : ∀ s : Schema, s.fingerprinted.spelledOut = {
      outputDir := ""
      enums := sortByName EnumDef.name s.canonical.enums
      helpers := sortByName HelperDef.name s.canonical.spelledOut.helpers
      tables := sortByName TableDef.name s.canonical.spelledOut.tables } := by
    intro s
    simp only [spelledOut, fingerprinted, map_sortByName hhelpers, map_sortByName htables]
  rw [hform, hform]
  simp only [Schema.mk.injEq, true_and, and_true]
  have he : (r.canonical.enums.map EnumDef.name).Nodup := by
    rwa [canonical, List.map_map, show EnumDef.name ∘ EnumDef.canonical = EnumDef.name from rfl]
  have hh : (r.canonical.spelledOut.helpers.map HelperDef.name).Nodup := by
    rwa [spelledOut, canonical, List.map_map, List.map_map,
      show (HelperDef.name ∘ HelperDef.spelledOut) ∘ HelperDef.canonical = HelperDef.name from rfl]
  have ht : (r.canonical.spelledOut.tables.map TableDef.name).Nodup := by
    rwa [spelledOut, canonical, List.map_map, List.map_map,
      show (TableDef.name ∘ TableDef.spelledOut) ∘ TableDef.canonical = TableDef.name from rfl]
  rw [sortByName_eq_iff he, sortByName_eq_iff hh, sortByName_eq_iff ht]
  constructor
  · rintro ⟨henums, hhelpers, htables⟩
    exact ⟨henums, hhelpers, htables⟩
  · intro h
    exact ⟨h.enums, h.helpers, h.tables⟩

/-- The order of entities with names of their own is not fingerprinted, and
    neither is where they are generated. -/
theorem SameEntities.fingerprinted (h : r.SameEntities s)
    (he : (r.enums.map EnumDef.name).Nodup) (hh : (r.helpers.map HelperDef.name).Nodup)
    (ht : (r.tables.map TableDef.name).Nodup) : r.fingerprinted = s.fingerprinted := by
  have henums : sortByName EnumDef.name (r.enums.map EnumDef.canonical) =
      sortByName EnumDef.name (s.enums.map EnumDef.canonical) := by
    refine (sortByName_eq_iff ?_).2 (h.enums.map _)
    rw [List.map_map]
    exact he
  have hhelpers : sortByName HelperDef.name (r.helpers.map HelperDef.canonical) =
      sortByName HelperDef.name (s.helpers.map HelperDef.canonical) := by
    refine (sortByName_eq_iff ?_).2 (h.helpers.map _)
    rw [List.map_map]
    exact hh
  have htables : sortByName TableDef.name (r.tables.map TableDef.canonical) =
      sortByName TableDef.name (s.tables.map TableDef.canonical) := by
    refine (sortByName_eq_iff ?_).2 (h.tables.map _)
    rw [List.map_map]
    exact ht
  simp only [Schema.fingerprinted, canonical, henums, hhelpers, htables]

/-- A canonical form has the fingerprint of what it is the form of. -/
theorem fingerprint_canonical (s : Schema) : s.canonical.fingerprint = s.fingerprint := by
  rw [fingerprint, fingerprint, Schema.fingerprinted, Schema.fingerprinted, canonical_canonical]

/-- **Two schemas have the same fingerprint exactly if their canonical forms are
    the same**, up to the order of entities and the spelling of calls. -/
theorem fingerprint_eq_iff (hd : r.NoCollision s) (he : (r.enums.map EnumDef.name).Nodup)
    (hh : (r.helpers.map HelperDef.name).Nodup) (ht : (r.tables.map TableDef.name).Nodup) :
    r.fingerprint = s.fingerprint ↔
      r.canonical.spelledOut.SameEntities s.canonical.spelledOut := by
  rw [fingerprint_eq_iff_serialized hd, serialized_eq_iff, fingerprinted_eq_iff he hh ht]

end Schema

end SchemaLoom
