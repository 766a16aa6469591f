/-
  Programs that only look at a tree.

  Such a program leaves the tree as it is and answers with a function of it
  (`Tree.Looks`), and so does what is put together from such programs.
-/
import SchemaLoom.Proofs.Files.Programs

namespace SchemaLoom

open FileSystem

namespace Tree

variable {α β : Type} {t : Tree} {p : Path} {pre : List String} {name : String}

/-- The program leaves every tree as it is, and answers with `f` of it. -/
def Looks (x : StateM Tree α) (f : Tree → α) : Prop := ∀ t, x t = (f t, t)

namespace Looks

theorem pure (a : α) : Looks (Pure.pure a) fun _ => a := fun _ => rfl

theorem bind {x : StateM Tree α} {f : Tree → α} {g : α → StateM Tree β} {h : α → Tree → β}
    (hx : Looks x f) (hg : ∀ a, Looks (g a) (h a)) : Looks (x >>= g) fun t => h (f t) t := by
  intro t
  rw [run_bind, hx t]
  exact hg (f t) t

theorem congr {x : StateM Tree α} {f g : Tree → α} (hx : Looks x f) (h : ∀ t, f t = g t) :
    Looks x g :=
  fun t => (hx t).trans (by rw [h t])

section
variable {xs : List α}

theorem mapM {f : α → StateM Tree β} {g : α → Tree → β} (h : ∀ a, Looks (f a) (g a)) :
    Looks (xs.mapM f) fun t => xs.map fun a => g a t := by
  induction xs with
  | nil => exact pure []
  | cons a xs ih =>
    rw [List.mapM_cons]
    exact (h a).bind fun b => ih.bind fun bs => pure (b :: bs)

theorem anyM {f : α → StateM Tree Bool} {g : α → Tree → Bool} (h : ∀ a, Looks (f a) (g a)) :
    Looks (xs.anyM f) fun t => xs.any fun a => g a t := by
  induction xs with
  | nil => exact pure false
  | cons a xs ih =>
    intro t
    rw [List.anyM, run_bind, h a t]
    dsimp only
    rw [List.any_cons]
    cases g a t with
    | true => rfl
    | false => exact ih t

theorem filterAuxM {f : α → StateM Tree Bool} {g : α → Tree → Bool} (h : ∀ a, Looks (f a) (g a))
    (kept : List α) :
    Looks (xs.filterAuxM f kept) fun t => (xs.filter fun a => g a t).reverse ++ kept := by
  induction xs generalizing kept with
  | nil => exact pure kept
  | cons a xs ih =>
    intro t
    rw [List.filterAuxM, run_bind, h a t]
    refine (ih _ t).trans (Prod.ext ?_ rfl)
    dsimp only
    rw [List.filter_cons]
    cases g a t with
    | true => rw [if_pos rfl, List.reverse_cons, List.append_assoc]; rfl
    | false => rw [if_neg nofun]; rfl

theorem filterM {f : α → StateM Tree Bool} {g : α → Tree → Bool} (h : ∀ a, Looks (f a) (g a)) :
    Looks (xs.filterM f) fun t => xs.filter fun a => g a t := by
  refine ((filterAuxM h []).bind fun kept => pure kept.reverse).congr fun t => ?_
  rw [List.append_nil, List.reverse_reverse]

end

end Looks

/-! ## Operations that look -/

/-- What a path leads to. -/
def kind (t : Tree) (p : Path) : Except FileError EntryKind :=
  (t.find p).map fun found => found.2.kind

/-- Whether a path leads to a file. -/
def isFile (t : Tree) (p : Path) : Bool := (t.kind p).toOption = some .file

/-- Whether a path leads to a directory. -/
def isDirectory (t : Tree) (p : Path) : Bool := (t.kind p).toOption = some .directory

/-- Whether a path leads to anything. -/
def isThere (t : Tree) (p : Path) : Except FileError Bool :=
  match t.kind p with
  | .ok _ => .ok true
  | .error .noSuchFile => .ok false
  | .error e => .error e

/-- The text of a file. -/
def text (t : Tree) (p : Path) : Except FileError String :=
  match t.contents p with
  | .ok bytes =>
    match String.fromUTF8? bytes with
    | some text => .ok text
    | none => .error .notText
  | .error e => .error e

theorem looks_kind (p : Path) : Looks (FileSystem.kind p) fun t => t.kind p := fun _ => rfl

/-- The names of what is in a directory; there is nothing in what is none. -/
def entries (t : Tree) (p : Path) : List String := (t.names p).toOption.getD []

theorem looks_names (p : Path) : Looks (FileSystem.names p) fun t => t.names p := fun _ => rfl

theorem looks_isFile (p : Path) : Looks (FileSystem.isFile p) fun t => t.isFile p := fun _ => rfl

theorem looks_isDirectory (p : Path) : Looks (FileSystem.isDirectory p) fun t => t.isDirectory p :=
  fun _ => rfl

theorem find_of_isDirectory (h : t.isDirectory p = true) :
    ∃ l nodes, t.find p = .ok (l, .directory nodes) := by
  rw [isDirectory, kind, decide_eq_true_iff] at h
  cases hf : t.find p with
  | error e =>
    rw [hf] at h
    cases h
  | ok found =>
    obtain ⟨l, node⟩ := found
    rw [hf] at h
    cases node with
    | file bytes => cases h
    | directory nodes => exact ⟨l, nodes, rfl⟩

/-- A directory can be listed. -/
theorem names_of_find {l : Location} {nodes : Nodes} (h : t.find p = .ok (l, .directory nodes)) :
    t.names p = .ok (nodes.map Prod.fst).eraseDups := by
  rw [names, h]
  rfl

theorem names_of_isDirectory (h : t.isDirectory p = true) : t.names p = .ok (t.entries p) := by
  obtain ⟨l, nodes, hf⟩ := find_of_isDirectory h
  rw [entries, names_of_find hf]
  rfl

theorem entries_of_find {l : Location} {nodes : Nodes}
    (h : t.find p = .ok (l, .directory nodes)) :
    t.entries p = (nodes.map Prod.fst).eraseDups := by
  rw [entries, names_of_find h]
  rfl

theorem isDirectory_of_mem_entries (h : name ∈ t.entries p) : t.isDirectory p = true := by
  rw [entries, names] at h
  rw [isDirectory, kind, decide_eq_true_iff]
  cases hf : t.find p with
  | error e =>
    rw [hf] at h
    cases h
  | ok found =>
    obtain ⟨l, node⟩ := found
    rw [hf] at h
    cases node with
    | file bytes => cases h
    | directory nodes => rfl

theorem entries_eq_nil (h : ¬ t.isDirectory p = true) : t.entries p = [] :=
  List.eq_nil_iff_forall_not_mem.2 fun _ hn => h (isDirectory_of_mem_entries hn)

theorem looks_isThere (p : Path) : Looks (FileSystem.isThere p) fun t => t.isThere p := by
  refine ((looks_kind p).bind (h := fun k _ => match k with
    | .ok _ => .ok true
    | .error .noSuchFile => .ok false
    | .error e => .error e) fun k => ?_).congr fun t => rfl
  cases k with
  | ok _ => exact .pure _
  | error e => cases e <;> exact .pure _

theorem looks_readText (p : Path) : Looks (readText p) fun t => t.text p := by
  intro t
  have hc : (FileSystem.contents p : StateM Tree (Except FileError ByteArray)) t =
    (t.contents p, t) := rfl
  rw [readText, run_bind, hc]
  dsimp only [text]
  cases t.contents p with
  | error e => rfl
  | ok bytes =>
    dsimp only
    cases String.fromUTF8? bytes <;> rfl

/-- The bytes of a text are those of that text. -/
theorem fromUTF8?_toUTF8 (s : String) : String.fromUTF8? s.toUTF8 = some s :=
  dif_pos s.isValidUTF8

theorem Within.text (h : t.Within p pre name) {s : String}
    (hf : t.get? (locationOf p.pieces) = some (.file s.toUTF8)) : t.text p = .ok s := by
  rw [Tree.text, h.contents hf]
  dsimp only
  rw [fromUTF8?_toUTF8]

end Tree

end SchemaLoom
