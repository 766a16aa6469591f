/-
  Where a path leads in a tree, told by locations.

  Without links a path leads to one location only (`locationOf`), and it leads
  there if each location on the way is a directory (`Tree.Passable`).

  * `Tree.walk_traced`, `Tree.passable_of_walk`, `Tree.exists_walk`: where a walk
    ends, and when there is one.
-/
import Mathlib.Data.List.Induction
import SchemaLoom.Files.Tree
import SchemaLoom.Proofs.Results

namespace SchemaLoom

/-! ## Locations -/

/-- Whether a piece is the name of an entry. -/
def Path.enters (piece : String) : Bool := Path.moves piece && piece != ".."

/-- Where a piece leads from a location. -/
def Location.follow (l : Location) (piece : String) : Location :=
  if piece = ".." then l.dropLast else if Path.moves piece then l ++ [piece] else l

/-- Where pieces lead from the root. -/
def locationOf (pieces : List String) : Location := pieces.foldl Location.follow []

theorem locationOf_append (pre : List String) (piece : String) :
    locationOf (pre ++ [piece]) = (locationOf pre).follow piece := by
  rw [locationOf, List.foldl_append]
  rfl

theorem follow_of_enters {l : Location} {piece : String} (h : Path.enters piece = true) :
    l.follow piece = l ++ [piece] := by
  rw [Path.enters, Bool.and_eq_true, bne_iff_ne] at h
  rw [Location.follow, if_neg h.2, if_pos h.1]

theorem locationOf_of_enters {pre : List String} {piece : String}
    (h : Path.enters piece = true) : locationOf (pre ++ [piece]) = locationOf pre ++ [piece] := by
  rw [locationOf_append, follow_of_enters h]

theorem Node.get?_append (node : Node) (l m : Location) :
    node.get? (l ++ m) = (node.get? l).bind fun next => next.get? m := by
  induction l generalizing node with
  | nil => rfl
  | cons name l ih =>
    rw [List.cons_append, get?, get?]
    cases node.inside.lookup name with
    | none => rfl
    | some next => exact ih next

namespace Tree

variable {t u : Tree} {way way' : Way} {piece name : String} {pieces pre : List String} {p : Path}

/-- What an entry of a directory is. -/
theorem get?_append_singleton {dir : Location} {nodes : Nodes}
    (h : t.root.get? dir = some (.directory nodes)) (name : String) :
    t.get? (dir ++ [name]) = (nodes.lookup name).map Node.entry := by
  rw [get?, Node.get?_append, h, Option.bind_some, Node.get?, Node.inside]
  cases nodes.lookup name <;> rfl

/-- Nothing is below a file. -/
theorem get?_below_file {l : Location} {bytes : ByteArray} (h : t.get? l = some (.file bytes))
    (name : String) (rest : Location) : t.get? (l ++ name :: rest) = none := by
  rw [get?, Option.map_eq_some_iff] at h
  obtain ⟨node, hn, he⟩ := h
  cases node with
  | directory nodes => cases he
  | file contents =>
    rw [get?, Node.get?_append, hn, Option.bind_some, Node.get?, Node.inside]
    rfl

theorem get?_eq_directory {l : Location} (h : t.get? l = some .directory) :
    ∃ nodes, t.root.get? l = some (.directory nodes) := by
  rw [get?, Option.map_eq_some_iff] at h
  obtain ⟨node, hn, he⟩ := h
  cases node with
  | directory nodes => exact ⟨nodes, hn⟩
  | file contents => cases he

/-! ## Walks -/

/-- Each node on the way is where its name leads. -/
inductive Traced (t : Tree) : Way → Prop
  | root : Traced t []
  | enter {way : Way} {name : String} {node : Node} {nodes : Nodes} : Traced t way →
      t.reached way = .directory nodes → nodes.lookup name = some node →
      Traced t ((name, node) :: way)

theorem location_cons (name : String) (node : Node) (way : Way) :
    Way.location ((name, node) :: way) = way.location ++ [name] := by
  rw [Way.location, List.map_cons, List.reverse_cons]
  rfl

theorem Traced.get?_root (h : t.Traced way) : t.root.get? way.location = some (t.reached way) := by
  induction h with
  | root => rfl
  | @enter way name node nodes hway hr hl ih =>
    rw [location_cons, Node.get?_append, ih, hr, Option.bind_some, Node.get?, Node.inside, hl]
    rfl

theorem Traced.tail (h : t.Traced way) : t.Traced way.tail := by
  cases h with
  | root => exact .root
  | enter hway _ _ => exact hway

theorem location_tail (way : Way) : Way.location way.tail = way.location.dropLast := by
  rw [Way.location, Way.location, List.map_tail]
  cases way.map Prod.fst with
  | nil => rfl
  | cons name names => rw [List.tail_cons, List.reverse_cons, List.dropLast_concat]

theorem search_eq_ok {nodes : Nodes} {node : Node} :
    search name nodes = .ok node ↔
      name.utf8ByteSize ≤ nameLimit ∧ nodes.lookup name = some node := by
  rw [search]
  by_cases hn : nameLimit < name.utf8ByteSize
  · rw [if_pos hn]
    exact ⟨nofun, fun h => absurd h.1 (Nat.not_le.2 hn)⟩
  · rw [if_neg hn]
    cases nodes.lookup name with
    | none => exact ⟨nofun, fun h => nomatch h.2⟩
    | some other => simp [Nat.not_lt.1 hn]

theorem search_eq_noSuchFile {nodes : Nodes} :
    search name nodes = .error .noSuchFile ↔
      name.utf8ByteSize ≤ nameLimit ∧ nodes.lookup name = none := by
  rw [search]
  by_cases hn : nameLimit < name.utf8ByteSize
  · rw [if_pos hn]
    exact ⟨nofun, fun h => absurd h.1 (Nat.not_le.2 hn)⟩
  · rw [if_neg hn]
    cases nodes.lookup name with
    | none => simp [Nat.not_lt.1 hn]
    | some other => exact ⟨nofun, fun h => nomatch h.2⟩

/-- A step leads from a directory to where its piece leads. -/
theorem step_eq_ok (hw : t.Traced way) (h : t.step way piece = .ok way') :
    t.Traced way' ∧ way'.location = way.location.follow piece ∧
      t.get? way.location = some .directory ∧
      (Path.enters piece = true → piece.utf8ByteSize ≤ nameLimit) := by
  have hg : t.get? way.location = some (t.reached way).entry := by
    rw [get?, hw.get?_root]
    rfl
  rw [step] at h
  rw [Location.follow, Path.enters, hg]
  cases hr : t.reached way with
  | file bytes =>
    rw [hr] at h
    cases h
  | directory nodes =>
    rw [hr] at h
    dsimp only at h
    by_cases hup : piece = ".."
    · rw [if_pos hup] at h ⊢
      obtain rfl := Except.ok.inj h
      exact ⟨hw.tail, location_tail way, rfl, by simp [hup]⟩
    · rw [if_neg hup] at h ⊢
      by_cases hm : Path.moves piece = true
      · rw [if_pos hm] at h ⊢
        cases hs : search piece nodes with
        | error e =>
          rw [hs] at h
          cases h
        | ok node =>
          rw [hs] at h
          obtain rfl := Except.ok.inj h
          obtain ⟨hn, hl⟩ := search_eq_ok.1 hs
          exact ⟨.enter hw hr hl, location_cons piece node way, rfl, fun _ => hn⟩
      · rw [if_neg hm] at h ⊢
        obtain rfl := Except.ok.inj h
        exact ⟨hw, rfl, rfl, by simp [hm]⟩

/-- A step can be made in a directory, unless it is to an entry that is not
    there. -/
theorem exists_step (hw : t.Traced way) (hd : t.get? way.location = some .directory)
    (hp : Path.enters piece = true →
      piece.utf8ByteSize ≤ nameLimit ∧ t.get? (way.location ++ [piece]) ≠ none) :
    ∃ way', t.step way piece = .ok way' := by
  obtain ⟨nodes, hn⟩ := get?_eq_directory hd
  have hr : t.reached way = .directory nodes := Option.some.inj (hw.get?_root.symm.trans hn)
  rw [step, hr]
  by_cases hup : piece = ".."
  · exact ⟨_, if_pos hup⟩
  · dsimp only
    rw [if_neg hup]
    by_cases hm : Path.moves piece = true
    · obtain ⟨hs, hl⟩ := hp (by simp [Path.enters, hm, hup])
      rw [get?_append_singleton hn] at hl
      cases hlook : nodes.lookup piece with
      | none => simp [hlook] at hl
      | some node =>
        rw [if_pos hm, search_eq_ok.2 ⟨hs, hlook⟩]
        exact ⟨_, rfl⟩
    · exact ⟨_, if_neg hm⟩

theorem walk_append (t : Tree) (pre : List String) (piece : String) :
    t.walk (pre ++ [piece]) = t.walk pre >>= fun way => t.step way piece := by
  rw [walk, walk, List.foldlM_append]
  refine congrArg _ (funext fun way => ?_)
  rw [List.foldlM_cons]
  cases t.step way piece <;> rfl

/-- A walk ends where its pieces lead. -/
theorem walk_traced (h : t.walk pieces = .ok way) :
    t.Traced way ∧ way.location = locationOf pieces := by
  induction pieces using List.reverseRecOn generalizing way with
  | nil =>
    obtain rfl := Except.ok.inj h
    exact ⟨.root, rfl⟩
  | append_singleton pre piece ih =>
    rw [walk_append] at h
    obtain ⟨before, hb, h⟩ := bind_eq_ok.1 h
    obtain ⟨hw, hl⟩ := ih hb
    obtain ⟨hway, hloc, -⟩ := step_eq_ok hw h
    exact ⟨hway, by rw [hloc, hl, locationOf_append]⟩

/-- Every location on the way is a directory, and no name is too long. -/
structure Passable (t : Tree) (pieces : List String) : Prop where
  short : ∀ piece ∈ pieces, Path.enters piece = true → piece.utf8ByteSize ≤ nameLimit
  directory : ∀ front, front <+: pieces → t.get? (locationOf front) = some .directory

theorem Passable.end (h : t.Passable pieces) : t.get? (locationOf pieces) = some .directory :=
  h.directory pieces (List.prefix_refl _)

theorem Passable.mono (h : t.Passable pieces)
    (hd : ∀ l, t.get? l = some .directory → u.get? l = some .directory) : u.Passable pieces :=
  ⟨h.short, fun front hf => hd _ (h.directory front hf)⟩

theorem Passable.front (h : t.Passable pieces) (hp : pre <+: pieces) : t.Passable pre :=
  ⟨fun piece hm => h.short piece (hp.subset hm), fun front hf => h.directory front (hf.trans hp)⟩

/-- A directory more. -/
theorem Passable.concat (h : t.Passable pre)
    (hs : Path.enters piece = true → piece.utf8ByteSize ≤ nameLimit)
    (hd : t.get? (locationOf (pre ++ [piece])) = some .directory) :
    t.Passable (pre ++ [piece]) := by
  refine ⟨fun other hm => ?_, fun front hf => ?_⟩
  · rcases List.mem_append.1 hm with hm | hm
    · exact h.short other hm
    · exact List.mem_singleton.1 hm ▸ hs
  · rcases List.prefix_concat_iff.1 hf with rfl | hf
    · exact hd
    · exact h.directory front hf

/-- A walk passes through directories. -/
theorem walk_passable (h : t.walk (pre ++ [piece]) = .ok way) :
    t.Passable pre ∧ (Path.enters piece = true → piece.utf8ByteSize ≤ nameLimit) := by
  induction pre using List.reverseRecOn generalizing way piece with
  | nil =>
    rw [walk_append] at h
    obtain ⟨before, hb, h⟩ := bind_eq_ok.1 h
    obtain ⟨hw, hl⟩ := walk_traced hb
    obtain ⟨-, -, hd, hs⟩ := step_eq_ok hw h
    refine ⟨⟨by simp, fun front hf => ?_⟩, hs⟩
    rw [List.prefix_nil.1 hf, ← hl]
    exact hd
  | append_singleton pre last ih =>
    rw [walk_append] at h
    obtain ⟨before, hb, h⟩ := bind_eq_ok.1 h
    obtain ⟨hw, hl⟩ := walk_traced hb
    obtain ⟨-, -, hd, hs⟩ := step_eq_ok hw h
    obtain ⟨hpre, hlast⟩ := ih hb
    exact ⟨hpre.concat hlast (hl ▸ hd), hs⟩

/-- A walk to a directory passes through directories. -/
theorem passable_of_walk (h : t.walk pieces = .ok way)
    (hd : t.get? (locationOf pieces) = some .directory) : t.Passable pieces := by
  cases pieces using List.reverseRecOn with
  | nil => exact ⟨by simp, fun front hf => List.prefix_nil.1 hf ▸ hd⟩
  | append_singleton pre last =>
    obtain ⟨hpre, hs⟩ := walk_passable h
    exact hpre.concat hs hd

/-- Pieces that pass through directories can be walked. -/
theorem exists_walk (h : t.Passable pieces) : ∃ way, t.walk pieces = .ok way := by
  induction pieces using List.reverseRecOn with
  | nil => exact ⟨[], rfl⟩
  | append_singleton pre piece ih =>
    obtain ⟨way, hway⟩ := ih (h.front (List.prefix_append _ _))
    obtain ⟨hw, hl⟩ := walk_traced hway
    obtain ⟨way', hstep⟩ := exists_step hw
      (hl ▸ h.directory pre (List.prefix_append _ _)) fun hp => by
        refine ⟨h.short piece (by simp) hp, ?_⟩
        rw [hl, ← locationOf_of_enters hp, h.end]
        nofun
    exact ⟨way', by rw [walk_append, hway]; exact hstep⟩

end Tree

end SchemaLoom
