/-
  What operations on a tree do to each location.

  * `Tree.write_eq_ok`, `Tree.makeDirectory_eq_ok`, `Tree.remove_eq_ok`: one
    change that succeeds;
  * `Tree.changesOnly_write`, `Tree.changesOnly_remove`: what it leaves alone.
-/
import SchemaLoom.Proofs.Files.Walk

namespace SchemaLoom

namespace Tree

variable {t u : Tree} {p : Path} {pre : List String} {name : String} {bytes : ByteArray}

/-! ## Looking -/

/-- The path ends with a name that is looked up in a directory. -/
structure Within (t : Tree) (p : Path) (pre : List String) (name : String) : Prop where
  pieces : p.pieces = pre ++ [name]
  enters : Path.enters name = true
  fault : p.fault? = none
  short : name.utf8ByteSize ≤ nameLimit
  passable : t.Passable pre

theorem Within.location (h : t.Within p pre name) :
    locationOf p.pieces = locationOf pre ++ [name] := by
  rw [h.pieces, locationOf_of_enters h.enters]

theorem Within.mono (h : t.Within p pre name)
    (hd : ∀ l, t.get? l = some .directory → u.get? l = some .directory) : u.Within p pre name :=
  { h with passable := h.passable.mono hd }

/-- What is found is where the path leads. -/
theorem find_eq_ok {l : Location} {node : Node} (h : t.find p = .ok (l, node)) :
    p.fault? = none ∧ l = locationOf p.pieces ∧ t.root.get? l = some node ∧
      ∃ way, t.walk p.pieces = .ok way := by
  rw [find] at h
  cases hf : p.fault? with
  | some e =>
    rw [hf] at h
    cases h
  | none =>
    rw [hf] at h
    dsimp only at h
    cases hw : t.walk p.pieces with
    | error e =>
      rw [hw] at h
      cases h
    | ok way =>
      rw [hw] at h
      obtain ⟨rfl, rfl⟩ := Prod.mk.inj (Except.ok.inj h)
      obtain ⟨htr, hl⟩ := walk_traced hw
      exact ⟨rfl, hl, htr.get?_root, way, rfl⟩

theorem within_of_find {l : Location} {node : Node} (hp : p.pieces = pre ++ [name])
    (hn : Path.enters name = true) (h : t.find p = .ok (l, node)) : t.Within p pre name := by
  obtain ⟨hf, -, -, way, hw⟩ := find_eq_ok h
  rw [hp] at hw
  obtain ⟨hpre, hs⟩ := walk_passable hw
  exact ⟨hp, hn, hf, hs hn, hpre⟩

/-- What is there is found. -/
theorem Within.find (h : t.Within p pre name) {node : Node}
    (hn : t.root.get? (locationOf p.pieces) = some node) :
    t.find p = .ok (locationOf p.pieces, node) := by
  obtain ⟨way, hw⟩ := exists_walk h.passable
  obtain ⟨htr, hl⟩ := walk_traced hw
  have hg : t.get? (way.location ++ [name]) ≠ none := by
    rw [hl, ← h.location, get?, hn]
    exact Option.some_ne_none _
  obtain ⟨way', hs⟩ := exists_step htr (hl ▸ h.passable.end) fun _ => ⟨h.short, hg⟩
  have hw' : t.walk p.pieces = .ok way' := by
    rw [h.pieces, walk_append, hw]
    exact hs
  obtain ⟨htr', hl'⟩ := walk_traced hw'
  have hr : t.reached way' = node := Option.some.inj (htr'.get?_root.symm.trans (hl' ▸ hn))
  rw [Tree.find, h.fault, hw', ← hl', ← hr]
  rfl

theorem Within.contents (h : t.Within p pre name)
    (hf : t.get? (locationOf p.pieces) = some (.file bytes)) : t.contents p = .ok bytes := by
  rw [get?, Option.map_eq_some_iff] at hf
  obtain ⟨node, hn, he⟩ := hf
  cases node with
  | directory nodes => cases he
  | file contents =>
    rw [Tree.contents, h.find hn]
    exact congrArg _ (Entry.file.inj he)

/-! ## Changing -/

theorem enters_ne_empty (h : Path.enters name = true) : name ≠ "" := by
  rintro rfl
  exact absurd h (by decide)

theorem trimmed_of_pieces (hp : p.pieces = pre ++ [name]) (hn : name ≠ "") :
    trimmed p = pre ++ [name] := by
  rw [trimmed, hp, List.reverse_append, List.reverse_singleton, List.singleton_append,
    List.dropWhile_cons_of_neg (by simpa using hn), List.reverse_cons, List.reverse_reverse]

theorem lastName_append (pre : List String) (h : Path.enters name = true) :
    lastName (pre ++ [name]) = some name := by
  rw [Path.enters] at h
  rw [lastName, List.getLast?_concat, Option.filter_some, if_pos h]

/-- The directory in which the name of a path is looked up. -/
theorem home_eq_ok {dir : Location} {nodes : Nodes} (hp : p.pieces = pre ++ [name])
    (hn : name ≠ "") (h : t.home p = .ok (dir, nodes)) :
    p.fault? = none ∧ t.Passable pre ∧ dir = locationOf pre ∧
      t.root.get? dir = some (.directory nodes) := by
  rw [home, trimmed_of_pieces hp hn, List.dropLast_concat] at h
  cases hf : p.fault? with
  | some e =>
    rw [hf] at h
    cases h
  | none =>
    rw [hf] at h
    obtain ⟨way, hw, h⟩ := bind_eq_ok.1 h
    obtain ⟨htr, hl⟩ := walk_traced hw
    cases hr : t.reached way with
    | file contents =>
      rw [hr] at h
      cases h
    | directory inside =>
      rw [hr] at h
      obtain ⟨rfl, rfl⟩ := Prod.mk.inj (Except.ok.inj h)
      have hg := htr.get?_root
      rw [hr] at hg
      refine ⟨rfl, passable_of_walk hw ?_, hl, hg⟩
      rw [← hl, get?, hg]
      rfl

/-- A file that is written is there, and all else is as before. -/
theorem write_eq_ok (hp : p.pieces = pre ++ [name]) (hn : Path.enters name = true)
    (h : t.write p bytes = .ok u) :
    t.Within p pre name ∧ t.get? (locationOf p.pieces) ≠ some .directory ∧
      ∀ l, u.get? l = if l = locationOf p.pieces then some (.file bytes) else t.get? l := by
  rw [write, bind_eq_ok] at h
  obtain ⟨⟨dir, nodes⟩, hh, h⟩ := h
  obtain ⟨hf, hpre, rfl, hnodes⟩ := home_eq_ok hp (enters_ne_empty hn) hh
  have hloc : locationOf p.pieces = locationOf pre ++ [name] := by
    rw [hp, locationOf_of_enters hn]
  have hget := get?_append_singleton hnodes name
  have hdir : t.get? (locationOf pre) = some .directory := hpre.end
  rw [hp, lastName_append pre hn] at h
  dsimp only at h
  have hput : name.utf8ByteSize ≤ nameLimit → t.get? (locationOf p.pieces) ≠ some .directory →
      t.put (locationOf pre) name (.file bytes) = u →
      t.Within p pre name ∧ t.get? (locationOf p.pieces) ≠ some .directory ∧
        ∀ l, u.get? l = if l = locationOf p.pieces then some (.file bytes) else t.get? l := by
    rintro hs hfree rfl
    refine ⟨⟨hp, hn, hf, hs, hpre⟩, hfree, fun l => ?_⟩
    rw [get?_put hdir rfl (hloc ▸ hfree), hloc]
    rfl
  split at h
  · cases h
  next contents hs =>
    obtain ⟨hs, hl⟩ := search_eq_ok.1 hs
    refine hput hs ?_ (Except.ok.inj h)
    rw [hloc, hget, hl]
    nofun
  next hs =>
    obtain ⟨hs, hl⟩ := search_eq_noSuchFile.1 hs
    refine hput hs ?_ (Except.ok.inj h)
    rw [hloc, hget, hl]
    nofun
  · cases h

/-- A directory that is made is there, where nothing was before. -/
theorem makeDirectory_eq_ok (hp : p.pieces = pre ++ [name]) (hn : name ≠ "")
    (h : t.makeDirectory p = .ok u) :
    t.get? (locationOf p.pieces) = none ∧
      ∀ l, u.get? l = if l = locationOf p.pieces then some .directory else t.get? l := by
  rw [makeDirectory, bind_eq_ok] at h
  obtain ⟨⟨dir, nodes⟩, hh, h⟩ := h
  obtain ⟨hf, hpre, rfl, hnodes⟩ := home_eq_ok hp hn hh
  rw [trimmed_of_pieces hp hn] at h
  by_cases he : Path.enters name = true
  case neg =>
    have hl : lastName (pre ++ [name]) = none := by
      rw [lastName, List.getLast?_concat, Option.filter_some]
      exact if_neg he
    rw [hl] at h
    cases h
  have hloc : locationOf p.pieces = locationOf pre ++ [name] := by
    rw [hp, locationOf_of_enters he]
  rw [lastName_append pre he] at h
  dsimp only at h
  split at h
  · cases h
  next hs =>
    obtain ⟨-, hl⟩ := search_eq_noSuchFile.1 hs
    have hfree : t.get? (locationOf p.pieces) = none := by
      rw [hloc, get?_append_singleton hnodes name, hl]
      rfl
    obtain rfl := Except.ok.inj h
    refine ⟨hfree, fun l => ?_⟩
    rw [get?_put hpre.end rfl (by rw [← hloc, hfree]; nofun), hloc]
    rfl
  · cases h

/-- A file that is removed is gone, and all else is as before. -/
theorem remove_eq_ok (hp : p.pieces = pre ++ [name]) (hn : Path.enters name = true)
    (h : t.remove p = .ok u) :
    (∃ bytes, t.get? (locationOf p.pieces) = some (.file bytes)) ∧
      ∀ l, u.get? l = if l = locationOf p.pieces then none else t.get? l := by
  rw [remove, bind_eq_ok] at h
  obtain ⟨⟨dir, nodes⟩, hh, h⟩ := h
  obtain ⟨hf, hpre, rfl, hnodes⟩ := home_eq_ok hp (enters_ne_empty hn) hh
  have hloc : locationOf p.pieces = locationOf pre ++ [name] := by
    rw [hp, locationOf_of_enters hn]
  rw [hp, lastName_append pre hn] at h
  obtain ⟨node, hs, h⟩ := bind_eq_ok.1 h
  obtain ⟨-, hl⟩ := search_eq_ok.1 hs
  cases node with
  | directory inside => cases h
  | file contents =>
    obtain rfl := Except.ok.inj h
    have hfile : t.get? (locationOf p.pieces) = some (.file contents) := by
      rw [hloc, get?_append_singleton hnodes name, hl]
      rfl
    refine ⟨⟨contents, hfile⟩, fun l => ?_⟩
    rw [get?_erase, ← hloc]
    by_cases he : l = locationOf p.pieces
    · rw [if_pos he, if_pos (he ▸ List.prefix_refl _)]
    · rw [if_neg he]
      by_cases hpl : locationOf p.pieces <+: l
      · obtain ⟨rest, rfl⟩ := hpl
        cases rest with
        | nil => exact absurd (List.append_nil _) he
        | cons name rest => rw [if_pos (List.prefix_append _ _), get?_below_file hfile]
      · rw [if_neg hpl]

/-! ## One place -/

/-- No directory is lost, and files are as before except at one location. -/
structure ChangesOnly (l : Location) (t u : Tree) : Prop where
  directory : ∀ k, t.get? k = some .directory → u.get? k = some .directory
  file : ∀ k bytes, k ≠ l → (u.get? k = some (.file bytes) ↔ t.get? k = some (.file bytes))

theorem changesOnly_write (hp : p.pieces = pre ++ [name]) (hn : Path.enters name = true)
    (h : t.write p bytes = .ok u) : ChangesOnly (locationOf p.pieces) t u := by
  obtain ⟨-, hfree, hu⟩ := write_eq_ok hp hn h
  refine ⟨fun k hk => ?_, fun k bytes hk => by rw [hu, if_neg hk]⟩
  rw [hu, if_neg, hk]
  rintro rfl
  exact hfree hk

theorem changesOnly_remove (hp : p.pieces = pre ++ [name]) (hn : Path.enters name = true)
    (h : t.remove p = .ok u) : ChangesOnly (locationOf p.pieces) t u := by
  obtain ⟨⟨bytes, hf⟩, hu⟩ := remove_eq_ok hp hn h
  refine ⟨fun k hk => ?_, fun k bytes hk => by rw [hu, if_neg hk]⟩
  rw [hu, if_neg, hk]
  rintro rfl
  rw [hf] at hk
  cases hk

/-- What is not there is not found, unless the path itself is at fault. -/
theorem get?_of_noSuchFile (hp : p.pieces = pre ++ [name]) (hn : Path.enters name = true)
    (hpre : t.Passable pre) (h : t.find p = .error .noSuchFile) :
    t.get? (locationOf p.pieces) = none := by
  by_contra hthere
  obtain ⟨node, hnode⟩ := Option.ne_none_iff_exists'.1 (mt Option.map_eq_none_iff.2 hthere)
  have hf : p.fault? = none := by
    rw [find] at h
    cases hf : p.fault? with
    | none => rfl
    | some e =>
      rw [hf] at h
      obtain rfl := Except.error.inj h
      have he : p.isEmpty = false := by
        have := enters_ne_empty hn
        cases pre <;> simp [Path.isEmpty, hp, this]
      rw [Path.fault?, he] at hf
      split at hf
      · cases hf
      · rw [if_neg (by decide)] at hf
        split at hf <;> cases hf
  by_cases hs : name.utf8ByteSize ≤ nameLimit
  · rw [Within.find ⟨hp, hn, hf, hs, hpre⟩ hnode] at h
    cases h
  · obtain ⟨way, hw⟩ := exists_walk hpre
    obtain ⟨htr, hl⟩ := walk_traced hw
    obtain ⟨nodes, hdir⟩ := get?_eq_directory (hl ▸ hpre.end)
    have hr : t.reached way = .directory nodes :=
      Option.some.inj (htr.get?_root.symm.trans hdir)
    rw [Path.enters, Bool.and_eq_true, bne_iff_ne] at hn
    have hlong : t.step way name = .error .nameTooLong := by
      rw [step, hr]
      dsimp only
      rw [if_neg hn.2, if_pos hn.1, search, if_pos (Nat.lt_of_not_le hs)]
      rfl
    have hwalk : t.walk p.pieces = .error .nameTooLong := by
      rw [hp, walk_append, hw]
      exact hlong
    rw [find, hf, hwalk] at h
    cases h

end Tree

end SchemaLoom
