/-
  What is left of the changes once one of them is made.

  Positions move when a list changes, and so does the column that another change
  of the same column starts from.  What else a change says stays as it was
  (`Change.unplaced`).

  * `Leaves`: the changes are those from before without one;
  * `ListComparison`: the changes between two named lists;
  * `ListComparison.exists_step`: a change that is made in the list leaves the
    others.
-/
import SchemaLoom.Proofs.Change.Exact
import SchemaLoom.Proofs.Change.Replay

namespace SchemaLoom

/-! ## Changes up to their place -/

/-- The details without positions, and without the column as it was. -/
def ChangeDetails.unplaced : ChangeDetails → ChangeDetails
  | .enumValue value _ => .enumValue value 0
  | .column definition _ => .column definition 0
  | .helperReference used _ => .helperReference used 0
  | .columnChange _ new => .columnChange new new
  | details => details

/-- The change without positions, and without the column as it was.  Its type,
    category, impact, target and description stay. -/
def Change.unplaced (c : Change) : Change := { c with details := c.details.unplaced }

/-- The details are the given ones, places apart. -/
def ChangeDetails.Like (d : ChangeDetails) : ChangeDetails → Prop
  | .enumValue value _ => ∃ i, d = .enumValue value i
  | .column definition _ => ∃ i, d = .column definition i
  | .helperReference used _ => ∃ i, d = .helperReference used i
  | .columnChange _ new => ∃ old, d = .columnChange old new
  | e => d = e

theorem ChangeDetails.like_of_unplaced_eq {d e : ChangeDetails} (h : d.unplaced = e.unplaced) :
    d.Like e := by
  cases d <;> cases e <;> simp_all [unplaced, Like]

section
variable {c d : Change}

theorem Change.type_eq (h : c.unplaced = d.unplaced) : c.type = d.type := by
  have hu : c.unplaced.type = d.unplaced.type := congrArg _ h
  exact hu

theorem Change.target_eq (h : c.unplaced = d.unplaced) : c.target = d.target := by
  have hu : c.unplaced.target = d.unplaced.target := congrArg _ h
  exact hu

theorem Change.key_eq (h : c.unplaced = d.unplaced) : c.key = d.key :=
  Prod.ext (type_eq h) (target_eq h)

theorem Change.details_like (h : c.unplaced = d.unplaced) : c.details.Like d.details := by
  have hu : c.unplaced.details = d.unplaced.details := congrArg _ h
  exact ChangeDetails.like_of_unplaced_eq hu

end

/-- The change is one of the given ones, places apart. -/
def Change.IsIn (c : Change) (cs : List Change) : Prop := c.unplaced ∈ cs.map Change.unplaced

theorem Change.isIn_append {c : Change} {cs ds : List Change} :
    c.IsIn (cs ++ ds) ↔ c.IsIn cs ∨ c.IsIn ds := by
  rw [IsIn, List.map_append, List.mem_append, IsIn, IsIn]

theorem Change.isIn_iff {c : Change} {cs : List Change} :
    c.IsIn cs ↔ ∃ d ∈ cs, c.unplaced = d.unplaced := by
  rw [IsIn, List.mem_map]
  exact exists_congr fun d => and_congr_right fun _ => eq_comm

theorem Change.IsIn.type_mem {c : Change} {cs : List Change} {ts : List ChangeType}
    (h : c.IsIn cs) (hts : TypesIn ts cs) : c.type ∈ ts := by
  obtain ⟨d, hd, he⟩ := isIn_iff.1 h
  exact type_eq he ▸ hts d hd

theorem Change.IsIn.target_about {c : Change} {cs : List Change} {kind : EntityKind}
    {entity : String} (h : c.IsIn cs) (ha : About kind entity cs) :
    c.target.kind = kind ∧ c.target.entity = entity := by
  obtain ⟨d, hd, he⟩ := isIn_iff.1 h
  exact target_eq he ▸ ha d hd

/-! ## What is left -/

/-- The changes `ds` are the changes `cs` without `c`, places apart. -/
def Leaves (c : Change) (cs ds : List Change) : Prop :=
  ds.map Change.unplaced = (cs.filter fun d => d.key ≠ c.key).map Change.unplaced

section
variable {c : Change} {cs ds cs' ds' : List Change}

theorem Leaves.append (hc : Leaves c cs cs') (hd : Leaves c ds ds') :
    Leaves c (cs ++ ds) (cs' ++ ds') := by
  rw [Leaves] at hc hd ⊢
  rw [List.map_append, List.filter_append, List.map_append, hc, hd]

/-- Changes of other keys stay. -/
theorem leaves_of_key_ne (h : ∀ d ∈ cs, d.key ≠ c.key)
    (he : cs'.map Change.unplaced = cs.map Change.unplaced) : Leaves c cs cs' := by
  rw [Leaves, he, List.filter_eq_self.2 fun d hd => decide_eq_true (h d hd)]

/-- Changes of other types stay. -/
theorem leaves_of_typesIn {ts : List ChangeType} (hts : TypesIn ts cs) (hc : c.type ∉ ts)
    (he : cs'.map Change.unplaced = cs.map Change.unplaced) : Leaves c cs cs' :=
  leaves_of_key_ne (fun d hd hk => by
    have ht : d.type = c.type := congrArg Prod.fst hk
    exact hc (ht ▸ hts d hd)) he

/-- Nothing is left of the change itself. -/
theorem leaves_nil (h : ∀ d ∈ cs, d.key = c.key) (he : ds = []) : Leaves c cs ds := by
  rw [Leaves, List.filter_eq_nil_iff.2 fun d hd => by simpa using h d hd, he]

theorem leaves_flatMap {β : Type} {xs : List β} {f g : β → List Change}
    (h : ∀ x ∈ xs, Leaves c (f x) (g x)) : Leaves c (xs.flatMap f) (xs.flatMap g) := by
  induction xs with
  | nil => rfl
  | cons x xs ih =>
    rw [List.flatMap_cons, List.flatMap_cons]
    exact (h x List.mem_cons_self).append (ih fun y hy => h y (List.mem_cons_of_mem x hy))

end

theorem map_unplaced_congr {α : Type} {f : α × Nat → Change}
    (hf : ∀ x i j, (f (x, i)).unplaced = (f (x, j)).unplaced) {xs ys : List (α × Nat)}
    (h : xs.map Prod.fst = ys.map Prod.fst) :
    (xs.map f).map Change.unplaced = (ys.map f).map Change.unplaced := by
  have hm : ∀ zs : List (α × Nat), (zs.map f).map Change.unplaced =
      (zs.map Prod.fst).map fun x => (f (x, 0)).unplaced := by
    intro zs
    rw [List.map_map, List.map_map]
    exact List.map_congr_left fun z _ => hf z.1 z.2 0
  rw [hm, hm, h]

/-! ## Two named lists -/

/-- How the changes between two named lists are told. -/
structure ListComparison (α : Type) where
  name : α → String
  /-- The target of an addition or a removal of a name. -/
  target : String → ChangeTarget
  /-- The name that a target holds. -/
  label : ChangeTarget → String
  added : α × Nat → Change
  removed : α × Nat → Change
  inside : α → α → List Change
  addedType : ChangeType
  removedType : ChangeType
  insideTypes : List ChangeType
  label_target : ∀ s, label (target s) = s
  key_added : ∀ x, (added x).key = (addedType, target (name x.1))
  key_removed : ∀ x, (removed x).key = (removedType, target (name x.1))
  type_inside : ∀ o n, TypesIn insideTypes (inside o n)
  label_inside : ∀ o n, ∀ c ∈ inside o n, label c.target = name n
  apart : addedType ≠ removedType ∧ addedType ∉ insideTypes ∧ removedType ∉ insideTypes
  unplaced_removed : ∀ a i j, (removed (a, i)).unplaced = (removed (a, j)).unplaced

namespace ListComparison

variable {α : Type} (C : ListComparison α) {old new bs : List α} {c : Change}

/-- The additions that lead from one list to another. -/
def additions (old new : List α) : List Change := (absentFrom C.name old new).map C.added

/-- The removals that lead from one list to another. -/
def removals (old new : List α) : List Change := (absentFrom C.name new old).map C.removed

/-- The changes inside what both lists have. -/
def insides (old new : List α) : List Change :=
  (paired C.name old new).flatMap fun p => C.inside p.1 p.2

/-- The list `bs` is the list `old` after the change `c` of those that lead to
    `new`: the others are left. -/
structure Step (c : Change) (new old bs : List α) : Prop where
  nodup : (bs.map C.name).Nodup
  additions : Leaves c (C.additions old new) (C.additions bs new)
  removals : Leaves c (C.removals old new) (C.removals bs new)
  insides : Leaves c (C.insides old new) (C.insides bs new)

theorem typesIn_additions (old new : List α) : TypesIn [C.addedType] (C.additions old new) :=
  typesIn_map C.addedType fun x => congrArg Prod.fst (C.key_added x)

theorem typesIn_removals (old new : List α) : TypesIn [C.removedType] (C.removals old new) :=
  typesIn_map C.removedType fun x => congrArg Prod.fst (C.key_removed x)

theorem typesIn_insides (old new : List α) : TypesIn C.insideTypes (C.insides old new) := by
  intro d hd
  obtain ⟨p, -, hd⟩ := List.mem_flatMap.1 hd
  exact C.type_inside _ _ d hd

/-- The change of a name is the one that goes. -/
theorem filter_key_ne {f : α × Nat → Change} {type : ChangeType} {s : String}
    (hf : ∀ x, (f x).key = (type, C.target (C.name x.1))) (hc : c.key = (type, C.target s))
    (xs : List (α × Nat)) :
    (xs.map f).filter (fun d => d.key ≠ c.key) = (xs.filter fun x => C.name x.1 ≠ s).map f := by
  rw [List.filter_map]
  refine congrArg _ (List.filter_congr fun x _ => ?_)
  rw [Function.comp_apply, decide_eq_decide, not_iff_not, hf, hc]
  constructor
  · intro he
    have ht : C.target (C.name x.1) = C.target s := congrArg Prod.snd he
    rw [← C.label_target (C.name x.1), ht, C.label_target]
  · intro he
    rw [he]

/-- An added element takes away its addition. -/
theorem step_added {a : α} (ho : (old.map C.name).Nodup) (hn : (new.map C.name).Nodup)
    (ha : C.name a ∉ old.map C.name) (han : a ∈ new) (hself : C.inside a a = [])
    (hc : c.key = (C.addedType, C.target (C.name a))) (h : AddsTo a old bs) :
    C.Step c new old bs where
  nodup := h.nodup ha ho
  additions := by
    rw [Leaves, additions, additions, C.filter_key_ne C.key_added hc, h.absentFrom_left]
  removals := by
    have ht : c.type = C.addedType := congrArg Prod.fst hc
    refine leaves_of_typesIn (C.typesIn_removals old new) (by simpa [ht] using C.apart.1) ?_
    exact map_unplaced_congr C.unplaced_removed
      (h.absentFrom_right (List.mem_map_of_mem han))
  insides := by
    have ht : c.type = C.addedType := congrArg Prod.fst hc
    refine leaves_of_typesIn (C.typesIn_insides old new) (ht ▸ C.apart.2.1) ?_
    rw [insides, h.flatMap_paired ho hn ha han hself, insides]

/-- A removed element takes away its removal. -/
theorem step_removed {s : String} (ho : (old.map C.name).Nodup) (hs : s ∉ new.map C.name)
    (hc : c.key = (C.removedType, C.target s)) :
    C.Step c new old (old.filter fun a => C.name a != s) where
  nodup := ho.sublist (List.filter_sublist.map _)
  additions := by
    have ht : c.type = C.removedType := congrArg Prod.fst hc
    refine leaves_of_typesIn (C.typesIn_additions old new) (by simpa [ht] using C.apart.1.symm) ?_
    rw [additions, absentFrom_removed_left hs, additions]
  removals := by
    rw [Leaves, removals, removals, C.filter_key_ne C.key_removed hc]
    exact map_unplaced_congr C.unplaced_removed absentFrom_removed_right
  insides := by
    have ht : c.type = C.removedType := congrArg Prod.fst hc
    refine leaves_of_typesIn (C.typesIn_insides old new) (ht ▸ C.apart.2.2) ?_
    rw [insides, paired_removed hs, insides]

/-- A change inside an element takes away what it takes away there. -/
theorem step_inside {o n b : α} (ho : (old.map C.name).Nodup) (hn : (new.map C.name).Nodup)
    (hom : o ∈ old) (hnm : n ∈ new) (he : C.name o = C.name n) (hb : C.name b = C.name o)
    (ht : c.type ∈ C.insideTypes) (hl : C.label c.target = C.name n)
    (hc : Leaves c (C.inside o n) (C.inside b n)) :
    C.Step c new old (replaced C.name b old) where
  nodup := by rwa [map_name_replaced]
  additions := by
    refine leaves_of_typesIn (C.typesIn_additions old new) ?_ ?_
    · exact fun hm => C.apart.2.1 (List.mem_singleton.1 hm ▸ ht)
    · rw [additions, absentFrom_replaced_left, additions]
  removals := by
    refine leaves_of_typesIn (C.typesIn_removals old new) ?_ ?_
    · exact fun hm => C.apart.2.2 (List.mem_singleton.1 hm ▸ ht)
    · have hbn : C.name b ∈ new.map C.name := hb ▸ he ▸ List.mem_map_of_mem hnm
      exact map_unplaced_congr C.unplaced_removed (absentFrom_replaced_right hbn)
  insides := by
    rw [insides, insides, paired_replaced, List.flatMap_map]
    refine leaves_flatMap fun p hp => ?_
    obtain ⟨hpo, hpn, hpe⟩ := (mem_paired ho).1 hp
    by_cases hpb : C.name p.2 = C.name b
    · obtain rfl : p.1 = o := eq_of_name_eq ho hpo hom (hpe.trans (hpb.trans hb))
      obtain rfl : p.2 = n := eq_of_name_eq hn hpn hnm (hpe.symm.trans he)
      rw [if_pos hpb]
      exact hc
    · rw [if_neg hpb]
      refine leaves_of_key_ne (fun d hd hk => hpb ?_) rfl
      have htd : d.target = c.target := congrArg Prod.snd hk
      rw [← C.label_inside _ _ d hd, htd, hl, hb, he]

/-- **A change that is made in the list leaves the others.**  The property
    `Does` says which functions make the change. -/
theorem exists_step (Good : α → Prop) (Does : (List α → Except MergeError (List α)) → Prop)
    (ho : (old.map C.name).Nodup) (hn : (new.map C.name).Nodup) (hgo : ∀ o ∈ old, Good o)
    (hgn : ∀ n ∈ new, Good n) (hself : ∀ n ∈ new, C.inside n n = [])
    (hc : c.IsIn (C.additions old new) ∨ c.IsIn (C.removals old new) ∨ c.IsIn (C.insides old new))
    (hadd : ∀ a i, c.unplaced = (C.added (a, i)).unplaced → ∃ f, Does f ∧
      (C.name a ∉ old.map C.name → ∃ bs, f old = .ok bs ∧ AddsTo a old bs))
    (hrem : ∀ r ∈ old, ∀ i, c.unplaced = (C.removed (r, i)).unplaced → ∃ f, Does f ∧
      f old = .ok (old.filter fun a => C.name a != C.name r))
    (hin : ∀ o ∈ old, ∀ n ∈ new, C.name o = C.name n → c.IsIn (C.inside o n) → ∃ f b, Does f ∧
      f old = .ok (replaced C.name b old) ∧ C.name b = C.name o ∧ Good b ∧
      Leaves c (C.inside o n) (C.inside b n)) :
    ∃ f bs, Does f ∧ f old = .ok bs ∧ (∀ b ∈ bs, Good b) ∧ C.Step c new old bs := by
  rcases hc with hc | hc | hc
  · obtain ⟨d, hd, he⟩ := Change.isIn_iff.1 hc
    obtain ⟨⟨a, i⟩, hx, rfl⟩ := List.mem_map.1 hd
    obtain ⟨hx, ha⟩ := mem_absentFrom.1 hx
    obtain ⟨f, hf, h⟩ := hadd a i he
    obtain ⟨bs, hbs, h⟩ := h ha
    have han : a ∈ new := (List.mem_zipIdx' hx).2 ▸ List.getElem_mem _
    refine ⟨f, bs, hf, hbs, fun b hb => ?_, C.step_added ho hn ha han (hself a han)
      ((Change.key_eq he).trans (C.key_added _)) h⟩
    rcases h.mem.1 hb with rfl | hb
    · exact hgn b han
    · exact hgo b hb
  · obtain ⟨d, hd, he⟩ := Change.isIn_iff.1 hc
    obtain ⟨⟨r, i⟩, hx, rfl⟩ := List.mem_map.1 hd
    obtain ⟨hx, hr⟩ := mem_absentFrom.1 hx
    have hro : r ∈ old := (List.mem_zipIdx' hx).2 ▸ List.getElem_mem _
    obtain ⟨f, hf, h⟩ := hrem r hro i he
    exact ⟨f, _, hf, h, fun b hb => hgo b (List.mem_of_mem_filter hb),
      C.step_removed ho hr ((Change.key_eq he).trans (C.key_removed _))⟩
  · obtain ⟨d, hd, he⟩ := Change.isIn_iff.1 hc
    obtain ⟨⟨o, n⟩, hp, hd⟩ := List.mem_flatMap.1 hd
    obtain ⟨hom, hnm, hon⟩ := (mem_paired ho).1 hp
    obtain ⟨f, b, hf, h, hb, hgb, hl⟩ := hin o hom n hnm hon (Change.isIn_iff.2 ⟨d, hd, he⟩)
    refine ⟨f, _, hf, h, fun a ha => ?_, C.step_inside ho hn hom hnm hon hb ?_ ?_ hl⟩
    · rcases mem_replaced ha with rfl | ha
      · exact hgb
      · exact hgo a ha
    · exact Change.type_eq he ▸ C.type_inside _ _ d hd
    · exact Change.target_eq he ▸ C.label_inside _ _ d hd

end ListComparison

end SchemaLoom
