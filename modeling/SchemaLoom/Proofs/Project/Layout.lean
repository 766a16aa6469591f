/-
  Where the modules of a project are, and how they are listed.

  * `entityPath_pieces`, `kindPath_pieces`: the paths of a project, piece by
    piece;
  * `Thins`: a path that is listed leads where the path itself leads.
-/
import SchemaLoom.Project.Layout
import SchemaLoom.Proofs.Files.Programs
import SchemaLoom.Proofs.Module.Imports

namespace SchemaLoom

/-! ## Names of files -/

/-- The file of a module. -/
def moduleFile (name : String) : String := name ++ String.ofList moduleSuffix

theorem toList_moduleFile (name : String) :
    (moduleFile name).toList = name.toList ++ ['.', 't', 's'] := by
  rw [moduleFile, String.toList_append, String.toList_ofList, moduleSuffix]

theorem moduleFile_injective {a b : String} (h : moduleFile a = moduleFile b) : a = b := by
  have hl := congrArg String.toList h
  rw [toList_moduleFile, toList_moduleFile, List.append_cancel_right_eq] at hl
  exact String.toList_injective hl

theorem indexName_eq : indexName = moduleFile "index" := by decide

/-- The file of an entity is a module, unless it is taken for an index. -/
theorem isModuleName_moduleFile {name : String} :
    isModuleName (moduleFile name) = true ↔ name ≠ "index" := by
  have hs : moduleSuffix.isSuffixOf (moduleFile name).toList = true := by
    rw [List.isSuffixOf_iff_suffix, toList_moduleFile]
    exact List.suffix_append _ _
  rw [isModuleName, hs, Bool.true_and, bne_iff_ne, indexName_eq]
  exact not_congr ⟨moduleFile_injective, congrArg _⟩

theorem moduleStem_moduleFile {name : String} (h : name ≠ "") :
    moduleStem (moduleFile name) = name := by
  have ht : (moduleFile name).toList.take ((moduleFile name).toList.length - moduleSuffix.length) =
      name.toList := by
    rw [toList_moduleFile, List.length_append, moduleSuffix]
    simp
  have hn : name.toList.isEmpty = false := by
    rw [Bool.eq_false_iff, ne_eq, List.isEmpty_iff]
    exact fun he => h (String.toList_injective (he.trans rfl))
  rw [moduleStem, ht, hn]
  exact String.ofList_toList

theorem enters_moduleFile (name : String) : Path.enters (moduleFile name) = true := by
  have hne : ∀ s : String, s.toList.getLast? ≠ some 's' → moduleFile name ≠ s := by
    rintro s hs rfl
    rw [toList_moduleFile] at hs
    exact hs (by simp)
  have h1 := hne "" (by decide)
  have h2 := hne "." (by decide)
  have h3 := hne ".." (by decide)
  simp [Path.enters, Path.moves, h1, h2, h3]

/-! ## Paths -/

theorem splitSlashes_of_notMem {cs : List Char} (h : '/' ∉ cs) : splitSlashes cs = [cs] := by
  induction cs with
  | nil => rfl
  | cons c cs ih =>
    rw [List.mem_cons, not_or] at h
    rw [splitSlashes, if_neg (Ne.symm h.1), ih h.2]

theorem ofString_of_notMem {s : String} (h : '/' ∉ s.toList) : Path.ofString s = ⟨[s]⟩ := by
  rw [Path.ofString, splitSlashes_of_notMem h, List.map_singleton, String.ofList_toList]

/-- The pieces of a path without a slash at its end. -/
def Path.stem (p : Path) : List String :=
  if p.pieces.getLast? = some "" then p.pieces.dropLast else p.pieces

/-- Where a path leads. -/
def Path.location (p : Path) : Location := locationOf p.pieces

theorem Path.stem_prefix (p : Path) : p.stem <+: p.pieces := by
  rw [stem]
  split
  · exact List.dropLast_prefix _
  · exact List.prefix_refl _

theorem Path.locationOf_stem (p : Path) : locationOf p.stem = p.location := by
  rw [stem, location]
  split
  next h =>
    obtain ⟨front, hf⟩ := List.getLast?_eq_some_iff.1 h
    rw [hf, List.dropLast_concat, locationOf_append]
    rfl
  next => rfl

theorem Path.child_pieces (p : Path) {name : String} (h : '/' ∉ name.toList) :
    p.child name = ⟨p.stem ++ [name]⟩ := by
  have ha : isAbsolute ⟨[name]⟩ = false := by
    rw [isAbsolute]
    split
    next hp => cases hp
    next => rfl
  rw [child, ofString_of_notMem h, join, ha, if_neg (by decide), stem]
  split <;> rfl

theorem slash_notMem_directory (kind : EntityKind) : '/' ∉ kind.directory.toList := by
  cases kind <;> decide

theorem slash_notMem_of_isIdentifier {name : String} (h : Text.isIdentifier name = true) :
    '/' ∉ name.toList :=
  fun hm => absurd (isIdentifierPart_of_mem h _ hm) (by decide)

theorem slash_notMem_moduleFile {name : String} (h : '/' ∉ name.toList) :
    '/' ∉ (moduleFile name).toList := by
  rw [toList_moduleFile, List.mem_append, not_or]
  exact ⟨h, by decide⟩

theorem directory_ne_empty (kind : EntityKind) : kind.directory ≠ "" := by
  cases kind <;> decide

theorem enters_directory (kind : EntityKind) : Path.enters kind.directory = true := by
  cases kind <;> decide

section
variable (root : Path) (kind : EntityKind)

theorem kindPath_pieces : kindPath root kind = ⟨root.stem ++ [kind.directory]⟩ :=
  root.child_pieces (slash_notMem_directory kind)

theorem stem_kindPath : (kindPath root kind).stem = root.stem ++ [kind.directory] := by
  rw [kindPath_pieces, Path.stem, List.getLast?_concat, if_neg]
  exact fun h => directory_ne_empty kind (Option.some.inj h)

/-- The path of a file in the directory of a kind. -/
theorem kindPath_child {file : String} (h : '/' ∉ file.toList) :
    (kindPath root kind).child file = ⟨root.stem ++ [kind.directory] ++ [file]⟩ := by
  rw [Path.child_pieces _ h, stem_kindPath]

theorem entityPath_pieces {name : String} (h : '/' ∉ name.toList) :
    entityPath root kind name = ⟨root.stem ++ [kind.directory] ++ [moduleFile name]⟩ :=
  kindPath_child root kind (slash_notMem_moduleFile h)

theorem indexPath_pieces : (kindPath root kind).child indexName =
    ⟨root.stem ++ [kind.directory] ++ [indexName]⟩ :=
  kindPath_child root kind (by decide)

theorem rootIndex_pieces : root.child indexName = ⟨root.stem ++ [indexName]⟩ :=
  root.child_pieces (by decide)

/-- Where a file in the directory of a kind is. -/
def placeOf (file : String) : Location := root.location ++ [kind.directory, file]

theorem locationOf_kindPath :
    locationOf (root.stem ++ [kind.directory]) = root.location ++ [kind.directory] := by
  rw [locationOf_of_enters (enters_directory kind), Path.locationOf_stem]

theorem locationOf_placeOf {file : String} (h : Path.enters file = true) :
    locationOf (root.stem ++ [kind.directory] ++ [file]) = placeOf root kind file := by
  rw [locationOf_of_enters h, locationOf_kindPath, placeOf, List.append_assoc]
  rfl

end

/-! ## Listed paths -/

/-- The pieces `q` are the pieces `p` without some that lead nowhere. -/
inductive Thins : List String → List String → Prop
  | nil : Thins [] []
  | keep {piece : String} {q p : List String} : Thins q p → Thins (piece :: q) (piece :: p)
  | drop {piece : String} {q p : List String} : piece = "" ∨ piece = "." → Thins q p →
      Thins q (piece :: p)

namespace Thins

variable {p q r : List String}

theorem filter (p : List String) : Thins (p.filter fun piece => piece != "") p := by
  induction p with
  | nil => exact .nil
  | cons piece p ih =>
    by_cases h : piece = ""
    · rw [List.filter_cons_of_neg (by simpa using h)]
      exact .drop (.inl h) ih
    · rw [List.filter_cons_of_pos (by simpa using h)]
      exact .keep ih

theorem dropWhile (h : Thins q (p.dropWhile fun piece => piece = ".")) : Thins q p := by
  induction p with
  | nil => exact h
  | cons piece p ih =>
    by_cases hd : piece = "."
    · rw [List.dropWhile_cons_of_pos (by simpa using hd)] at h
      exact .drop (.inr hd) (ih h)
    · rwa [List.dropWhile_cons_of_neg (by simpa using hd)] at h

theorem subset (h : Thins q p) : q ⊆ p := by
  induction h with
  | nil => exact List.Subset.refl _
  | keep _ ih => exact List.cons_subset_cons _ ih
  | drop _ _ ih => exact fun _ hm => List.mem_cons_of_mem _ (ih hm)

theorem foldl_follow (h : Thins q p) (l : Location) :
    q.foldl Location.follow l = p.foldl Location.follow l := by
  induction h generalizing l with
  | nil => rfl
  | keep _ ih => exact ih _
  | @drop piece _ _ hp _ ih =>
    have hl : l.follow piece = l := by rcases hp with rfl | rfl <;> rfl
    rw [List.foldl_cons, hl]
    exact ih l

theorem locationOf (h : Thins q p) : locationOf q = locationOf p := h.foldl_follow []

/-- The beginnings of the thinner pieces are those of the others. -/
theorem exists_prefix (h : Thins q p) (hr : r <+: q) : ∃ front, front <+: p ∧ Thins r front := by
  induction h generalizing r with
  | nil => exact ⟨[], List.prefix_refl _, List.prefix_nil.1 hr ▸ .nil⟩
  | @keep piece q p _ ih =>
    cases r with
    | nil => exact ⟨[], List.nil_prefix, .nil⟩
    | cons other r =>
      obtain ⟨rfl, hrest⟩ := List.cons_prefix_cons.1 hr
      obtain ⟨front, hf, ht⟩ := ih hrest
      exact ⟨other :: front, List.cons_prefix_cons.2 ⟨rfl, hf⟩, .keep ht⟩
  | @drop piece q p hp _ ih =>
    obtain ⟨front, hf, ht⟩ := ih hr
    exact ⟨piece :: front, List.cons_prefix_cons.2 ⟨rfl, hf⟩, .drop hp ht⟩

theorem passable {t : Tree} (h : Thins q p) (hp : t.Passable p) : t.Passable q := by
  refine ⟨fun piece hm => hp.short piece (h.subset hm), fun r hr => ?_⟩
  obtain ⟨front, hf, ht⟩ := h.exists_prefix hr
  rw [ht.locationOf]
  exact hp.directory front hf

theorem foldl_size_le (h : Thins q p) {a b : Nat} (hab : a ≤ b) :
    q.foldl (fun n piece => n + piece.utf8ByteSize + 1) a ≤
      p.foldl (fun n piece => n + piece.utf8ByteSize + 1) b := by
  induction h generalizing a b with
  | nil => exact hab
  | keep _ ih => exact ih (Nat.add_le_add_right (Nat.add_le_add_right hab _) 1)
  | drop _ _ ih => exact ih (Nat.le_trans hab (by dsimp only; omega))

theorem append (h : Thins q p) (last : String) : Thins (q ++ [last]) (p ++ [last]) := by
  induction h with
  | nil => exact .keep .nil
  | keep _ ih => exact .keep ih
  | drop hp _ ih => exact .drop hp ih

/-- A path that is fine stays fine when it is thinner. -/
theorem fault (h : Thins q p) {last : String} (hl : last ≠ "")
    (hp : (Path.mk (p ++ [last])).fault? = none) : (Path.mk (q ++ [last])).fault? = none := by
  rw [Path.fault?] at hp ⊢
  have hsub := (h.append last).subset
  split at hp
  · cases hp
  next hnul =>
    rw [if_neg]
    · split at hp
      · cases hp
      split at hp
      · cases hp
      next hlong =>
        have he : (Path.mk (q ++ [last])).isEmpty = false := by
          cases q <;> simp [Path.isEmpty, hl]
        have hle := (h.append last).foldl_size_le (Nat.le_refl 0)
        rw [he, if_neg (by decide), if_neg]
        simp only [Path.byteLength] at hlong ⊢
        omega
    · intro hany
      obtain ⟨piece, hm, hz⟩ := List.any_eq_true.1 hany
      exact hnul (List.any_eq_true.2 ⟨piece, hsub hm, hz⟩)

end Thins

/-- A directory is listed under a path that leads to it. -/
theorem thins_listed {p q : Path} (h : p.listed = some q) : Thins q.pieces p.pieces := by
  rw [Path.listed] at h
  split at h
  next ha =>
    obtain rfl := Option.some.inj h
    rw [Path.isAbsolute] at ha
    split at ha
    next first rest hp =>
      rw [hp, List.filter_cons_of_neg (by decide)]
      exact .keep (.filter _)
    · cases ha
  next =>
    dsimp only at h
    split at h
    · cases h
    · obtain rfl := Option.some.inj h
      exact .dropWhile (.filter _)

end SchemaLoom
