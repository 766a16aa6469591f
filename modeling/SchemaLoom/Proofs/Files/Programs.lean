/-
  Programs that run on a tree.

  * `Tree.grows_of_makeDirectories`: directories are made where nothing was, and
    nothing else changes;
  * `Tree.writeText_eq_ok`: a file is written, or something was there before;
  * `Tree.overwriteText_eq_ok`, `Tree.removeIfThere_eq_ok`: a file is replaced,
    or is no longer there.
-/
import SchemaLoom.Proofs.Files.Operations

namespace SchemaLoom

open FileSystem

namespace Tree

variable {t u v : Tree} {p : Path} {pre : List String} {name : String}

/-- Directories are made at some locations where nothing was, and nothing else
    changes. -/
def Grows (made : Location → Prop) (t u : Tree) : Prop :=
  ∀ l, u.get? l = t.get? l ∨ (t.get? l = none ∧ u.get? l = some .directory ∧ made l)

theorem Grows.refl (made : Location → Prop) (t : Tree) : Grows made t t := fun _ => .inl rfl

theorem Grows.trans {made : Location → Prop} (h : Grows made t u) (g : Grows made u v) :
    Grows made t v := by
  intro l
  rcases g l with hg | ⟨hn, hg⟩
  · rw [hg]
    exact h l
  · rcases h l with hh | ⟨-, hh, -⟩
    · exact .inr ⟨hh ▸ hn, hg⟩
    · rw [hh] at hn
      cases hn

theorem Grows.mono {made wide : Location → Prop} (h : Grows made t u)
    (hw : ∀ l, made l → wide l) : Grows wide t u :=
  fun l => (h l).imp_right fun ⟨hn, hd, hm⟩ => ⟨hn, hd, hw l hm⟩

theorem Grows.directory {made : Location → Prop} (h : Grows made t u) {l : Location}
    (hl : t.get? l = some .directory) : u.get? l = some .directory := by
  rcases h l with hu | ⟨-, hu, -⟩
  · rw [hu, hl]
  · exact hu

/-- A path without a slash at its end. -/
def Unslashed (p : Path) : Prop := ∃ pre name, p.pieces = pre ++ [name] ∧ name ≠ ""

theorem grows_of_makeDirectory (hp : Unslashed p) (h : t.makeDirectory p = .ok u) :
    Grows (· = locationOf p.pieces) t u := by
  obtain ⟨pre, name, hp, hn⟩ := hp
  obtain ⟨hfree, hu⟩ := makeDirectory_eq_ok hp hn h
  intro l
  rw [hu l]
  by_cases hl : l = locationOf p.pieces
  · rw [if_pos hl]
    exact .inr ⟨hl ▸ hfree, rfl, hl⟩
  · rw [if_neg hl]
    exact .inl rfl

theorem run_bind {α β : Type} (x : StateM Tree α) (f : α → StateM Tree β) (t : Tree) :
    (x >>= f) t = f (x t).1 (x t).2 :=
  rfl

theorem change_ok {f : Tree → Except FileError Tree} (h : f t = .ok u) :
    change f t = (.ok (), u) := by
  rw [change, h]

theorem change_error {f : Tree → Except FileError Tree} {e : FileError} (h : f t = .error e) :
    change f t = (.error e, t) := by
  rw [change, h]

theorem settle_state (p : Path) (r : Except FileError Unit) (t : Tree) :
    ((makeDirectories.settle p r : StateM Tree (Except FileError Unit)) t).2 = t := by
  cases r <;> rfl

/-- Directories are made where nothing was. -/
theorem grows_of_makeDirectories {ps : List Path} (hps : ∀ q ∈ ps, Unslashed q)
    (h : (makeDirectories ps : StateM Tree (Except FileError Unit)) t = (.ok (), u)) :
    Grows (fun l => ∃ q ∈ ps, l = locationOf q.pieces) t u := by
  induction ps generalizing t u with
  | nil =>
    obtain rfl : t = u := congrArg Prod.snd h
    exact .refl _ _
  | cons p outer ih =>
    obtain ⟨hp, houter⟩ := List.forall_mem_cons.1 hps
    have hmake : ∀ a : Tree, (FileSystem.makeDirectory p : StateM Tree (Except FileError Unit)) a =
        change (fun t => t.makeDirectory p) a := fun _ => rfl
    have hfirst : ∀ {a b : Tree}, a.makeDirectory p = .ok b →
        Grows (fun l => ∃ q ∈ p :: outer, l = locationOf q.pieces) a b := fun g =>
      (grows_of_makeDirectory hp g).mono fun l hl => ⟨p, List.mem_cons_self, hl⟩
    rw [makeDirectories, run_bind, hmake] at h
    cases hm : t.makeDirectory p with
    | ok a =>
      rw [change_ok hm] at h
      obtain rfl : a = u := congrArg Prod.snd h
      exact hfirst hm
    | error e =>
      rw [change_error hm] at h
      by_cases he : e = .noSuchFile
      · subst he
        dsimp only at h
        rw [run_bind] at h
        cases hr : (makeDirectories outer : StateM Tree (Except FileError Unit)) t with
        | mk r a =>
        rw [hr] at h
        cases r with
        | error e => cases congrArg Prod.fst h
        | ok r =>
          have hgrown : Grows (fun l => ∃ q ∈ p :: outer, l = locationOf q.pieces) t a :=
            (ih houter hr).mono fun l ⟨q, hq, hl⟩ => ⟨q, List.mem_cons_of_mem p hq, hl⟩
          dsimp only at h
          rw [run_bind, hmake] at h
          cases ha : a.makeDirectory p with
          | ok b =>
            rw [change_ok ha] at h
            obtain rfl : b = u := congrArg Prod.snd h
            exact hgrown.trans (hfirst ha)
          | error e =>
            rw [change_error ha] at h
            obtain rfl : a = u := (settle_state p (.error e) a).symm.trans (congrArg Prod.snd h)
            exact hgrown
      · have hs : (makeDirectories.settle p (.error e) : StateM Tree (Except FileError Unit)) t =
            (.ok (), u) := by
          cases e <;> first | exact absurd rfl he | exact h
        obtain rfl : t = u := (settle_state p (.error e) t).symm.trans (congrArg Prod.snd hs)
        exact .refl _ _

/-! ## Files -/

theorem above_pieces {pieces : List String} {q : Path} (h : q ∈ Path.above pieces) :
    Unslashed q ∧ q.pieces <+: pieces.reverse := by
  induction pieces with
  | nil => cases h
  | cons piece before ih =>
    have hlater : q ∈ Path.above before → Unslashed q ∧ q.pieces <+: (piece :: before).reverse := by
      intro hq
      rw [List.reverse_cons]
      exact ⟨(ih hq).1, (ih hq).2.trans (List.prefix_append _ _)⟩
    cases before with
    | nil =>
      rw [Path.above] at h
      by_cases hp : piece = ""
      · rw [if_pos hp] at h
        cases h
      · rw [if_neg hp, List.mem_singleton] at h
        exact h ▸ ⟨⟨[], piece, rfl, hp⟩, List.prefix_refl _⟩
    | cons other before =>
      rw [Path.above.eq_def] at h
      dsimp only at h
      by_cases hm : Path.moves piece = true
      · rw [if_pos hm] at h
        rcases List.mem_cons.1 h with rfl | h
        · refine ⟨⟨(other :: before).reverse, piece, List.reverse_cons, ?_⟩, List.prefix_refl _⟩
          rintro rfl
          exact absurd hm (by decide)
        · exact hlater h
      · rw [if_neg hm] at h
        exact hlater h

theorem parents_pieces (hp : p.pieces = pre ++ [name]) (hn : Path.moves name = true) {q : Path}
    (h : q ∈ p.parents) : Unslashed q ∧ q.pieces <+: pre := by
  rw [Path.parents, hp, List.reverse_append, List.reverse_singleton, List.singleton_append,
    Path.above.eq_def] at h
  cases hr : pre.reverse with
  | nil =>
    rw [hr] at h
    dsimp only at h
    split at h <;> cases h
  | cons other before =>
    rw [hr] at h
    dsimp only at h
    rw [if_pos hn, List.tail_cons, ← hr] at h
    have hq := above_pieces h
    rwa [List.reverse_reverse] at hq

theorem isThere_run (p : Path) (t : Tree) :
    (isThere p : StateM Tree (Except FileError Bool)) t =
      (match t.find p with
        | .ok _ => .ok true
        | .error .noSuchFile => .ok false
        | .error e => .error e, t) := by
  have hk : (FileSystem.kind p : StateM Tree (Except FileError EntryKind)) t =
      ((t.find p).map fun found => found.2.kind, t) := rfl
  rw [isThere, run_bind, hk]
  cases t.find p with
  | ok found => rfl
  | error e => cases e <;> rfl

/-- A file is written, after the directories that it needs. -/
theorem replaceText_eq_ok {text : String} (hp : p.pieces = pre ++ [name])
    (hn : Path.enters name = true)
    (h : (replaceText p text : StateM Tree (Except FileError Unit)) t = (.ok (), u)) :
    ∃ a, Grows (fun l => ∃ front, front <+: pre ∧ l = locationOf front) t a ∧
      a.write p text.toUTF8 = .ok u := by
  have hm : Path.moves name = true := by
    rw [Path.enters, Bool.and_eq_true] at hn
    exact hn.1
  rw [replaceText, run_bind] at h
  cases hr : (makeDirectories p.parents : StateM Tree (Except FileError Unit)) t with
  | mk r a =>
  rw [hr] at h
  cases r with
  | error e => cases congrArg Prod.fst h
  | ok r =>
    have hg := grows_of_makeDirectories (fun q hq => (parents_pieces hp hm hq).1) hr
    have hg' : Grows (fun l => ∃ front, front <+: pre ∧ l = locationOf front) t a := by
      refine hg.mono ?_
      rintro l ⟨q, hq, hl⟩
      exact ⟨q.pieces, (parents_pieces hp hm hq).2, hl⟩
    refine ⟨a, hg', ?_⟩
    have hw : change (fun t => t.write p text.toUTF8) a = (.ok (), u) := h
    cases ha : a.write p text.toUTF8 with
    | ok b =>
      rw [change_ok ha] at hw
      exact congrArg _ (congrArg Prod.snd hw)
    | error e =>
      rw [change_error ha] at hw
      cases congrArg Prod.fst hw

/-- A file is written, or something was there before that is not to be
    overwritten. -/
theorem writeText_eq_ok {text : String} {overwrite written : Bool} (hp : p.pieces = pre ++ [name])
    (hn : Path.enters name = true)
    (h : (writeText p text overwrite : StateM Tree (Except FileError Bool)) t = (.ok written, u)) :
    (∃ a, Grows (fun l => ∃ front, front <+: pre ∧ l = locationOf front) t a ∧
      a.write p text.toUTF8 = .ok u) ∨ t = u ∧ ∃ l node, t.find p = .ok (l, node) := by
  have hreplace : ∀ {r}, ((replaceText p text : StateM Tree (Except FileError Unit)) >>= fun r =>
      return r.map fun _ => true) t = (Except.ok r, u) →
      ∃ a, Grows (fun l => ∃ front, front <+: pre ∧ l = locationOf front) t a ∧
        a.write p text.toUTF8 = .ok u := by
    intro r h
    rw [run_bind] at h
    cases hr : (replaceText p text : StateM Tree (Except FileError Unit)) t with
    | mk r a =>
    rw [hr] at h
    cases r with
    | error e => cases congrArg Prod.fst h
    | ok r =>
      obtain rfl : a = u := congrArg Prod.snd h
      exact replaceText_eq_ok hp hn hr
  rw [writeText] at h
  cases overwrite with
  | true => exact .inl (hreplace h)
  | false =>
    rw [if_neg (by decide), run_bind, isThere_run] at h
    cases hf : t.find p with
    | ok found =>
      rw [hf] at h
      exact .inr ⟨congrArg Prod.snd h, found.1, found.2, rfl⟩
    | error e =>
      rw [hf] at h
      by_cases he : e = .noSuchFile
      · subst he
        exact .inl (hreplace h)
      · have hs : (match (Except.error e : Except FileError (Location × Node)) with
            | .ok _ => .ok true
            | .error .noSuchFile => .ok false
            | .error e => .error e : Except FileError Bool) = .error e := by
          cases e <;> first | exact absurd rfl he | rfl
        rw [hs] at h
        cases congrArg Prod.fst h

theorem Grows.changesOnly {made : Location → Prop} {l : Location} (h : Grows made t u)
    (g : ChangesOnly l u v) : ChangesOnly l t v := by
  refine ⟨fun k hk => g.directory k (h.directory hk), fun k bytes hk => ?_⟩
  rw [g.file k bytes hk]
  rcases h k with hu | ⟨ht, hu, -⟩
  · rw [hu]
  · rw [hu, ht]
    exact ⟨nofun, nofun⟩

/-- A file that is overwritten is there, and no other file changes. -/
theorem overwriteText_eq_ok {text : String} {done : Bool} (hp : p.pieces = pre ++ [name])
    (hn : Path.enters name = true)
    (h : (writeText p text true : StateM Tree (Except FileError Bool)) t = (.ok done, u)) :
    ChangesOnly (locationOf p.pieces) t u ∧
      u.get? (locationOf p.pieces) = some (.file text.toUTF8) ∧ u.Within p pre name := by
  have hrun : ((replaceText p text : StateM Tree (Except FileError Unit)) >>= fun r =>
      return r.map fun _ => true) t = (.ok done, u) := h
  rw [run_bind] at hrun
  cases hr : (replaceText p text : StateM Tree (Except FileError Unit)) t with
  | mk r b =>
  rw [hr] at hrun
  obtain rfl : b = u := congrArg Prod.snd hrun
  cases r with
  | error e => cases congrArg Prod.fst hrun
  | ok r =>
    obtain ⟨a, hg, hw⟩ := replaceText_eq_ok hp hn hr
    have hchanges := changesOnly_write hp hn hw
    obtain ⟨hwithin, -, hu⟩ := write_eq_ok hp hn hw
    exact ⟨hg.changesOnly hchanges, by rw [hu, if_pos rfl], hwithin.mono hchanges.directory⟩

/-- A file is removed, or there is none. -/
theorem removeIfThere_eq_ok {there : Bool}
    (h : (removeIfThere p : StateM Tree (Except FileError Bool)) t = (.ok there, u)) :
    t.remove p = .ok u ∨ t = u ∧ t.find p = .error .noSuchFile := by
  rw [removeIfThere, run_bind, isThere_run] at h
  cases hf : t.find p with
  | ok found =>
    rw [hf] at h
    have hrun : ((FileSystem.remove p : StateM Tree (Except FileError Unit)) >>= fun r =>
        return r.map fun _ => true) t = (.ok there, u) := h
    have hremove : (FileSystem.remove p : StateM Tree (Except FileError Unit)) t =
        change (fun t => t.remove p) t := rfl
    rw [run_bind, hremove] at hrun
    cases hr : t.remove p with
    | ok a =>
      rw [change_ok hr] at hrun
      exact .inl (congrArg _ (congrArg Prod.snd hrun))
    | error e =>
      rw [change_error hr] at hrun
      cases congrArg Prod.fst hrun
  | error e =>
    rw [hf] at h
    by_cases he : e = .noSuchFile
    · subst he
      exact .inr ⟨congrArg Prod.snd h, rfl⟩
    · cases e <;> first | exact absurd rfl he | cases congrArg Prod.fst h

end Tree

end SchemaLoom
