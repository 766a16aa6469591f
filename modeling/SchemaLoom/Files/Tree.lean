/-
  A file system held in memory.

  A `Tree` is what is in the root: files and directories by name.  A path is
  resolved piece by piece: a dot stays, two dots go up, and whatever a piece is
  looked up in must be a directory, so a path through something missing or
  through a file fails.

  What a change does is told by `get?`: `get?_put` and `get?_erase`.
-/
import SchemaLoom.Files.System

namespace SchemaLoom

/-- The names that lead from the root to an entry. -/
abbrev Location := List String

/-- What a tree holds at a location. -/
inductive Entry where
  | directory
  | file (contents : ByteArray)

instance : DecidableEq Entry
  | .directory, .directory => isTrue rfl
  | .directory, .file _ => isFalse nofun
  | .file _, .directory => isFalse nofun
  | .file ⟨a⟩, .file ⟨b⟩ => decidable_of_iff (a = b) (by simp)

/-- A file, or a directory with what is in it.  Of several nodes of one name the
    first counts. -/
inductive Node where
  | file (contents : ByteArray)
  | directory (inside : List (String × Node))

/-- Named nodes. -/
abbrev Nodes := List (String × Node)

namespace Node

/-- What is in a node. -/
def inside : Node → Nodes
  | file _ => []
  | directory nodes => nodes

/-- A node by itself, without what is in it. -/
def entry : Node → Entry
  | file contents => .file contents
  | directory _ => .directory

/-- The kind of a node. -/
def kind : Node → EntryKind
  | file _ => .file
  | directory _ => .directory

/-- Changes what is in a directory. -/
def mapInside (f : Nodes → Nodes) : Node → Node
  | file contents => file contents
  | directory nodes => directory (f nodes)

/-- The node at a location below another. -/
def get? : Node → Location → Option Node
  | node, [] => some node
  | node, name :: rest => (node.inside.lookup name).bind fun next => next.get? rest

end Node

namespace Nodes

/-- The nodes without those of a name. -/
def erase (name : String) (nodes : Nodes) : Nodes := nodes.filter fun n => n.1 ≠ name

/-- The nodes with one of a name, in place of others of that name. -/
def put (name : String) (node : Node) (nodes : Nodes) : Nodes := (name, node) :: nodes.erase name

/-- Changes what is in the directory at a location. -/
def change (f : Nodes → Nodes) : Location → Nodes → Nodes
  | [], nodes => f nodes
  | name :: rest, nodes =>
    nodes.map fun n => (n.1, if n.1 = name then n.2.mapInside (change f rest) else n.2)

theorem lookup_erase {name k : String} {nodes : Nodes} :
    (nodes.erase name).lookup k = if k = name then none else nodes.lookup k := by
  induction nodes with
  | nil => simp [erase]
  | cons n rest ih =>
    obtain ⟨key, node⟩ := n
    by_cases hkey : key = name
    · subst hkey
      by_cases hk : k = key
      · simpa [erase, hk] using ih
      · simpa [erase, hk, List.lookup_cons, beq_false_of_ne hk] using ih
    · by_cases hk : k = key
      · simp [erase, hkey, hk]
      · have hb : (k == key) = false := beq_false_of_ne hk
        simpa [erase, hkey, List.lookup_cons, hb] using ih

theorem lookup_put {name k : String} {node : Node} {nodes : Nodes} :
    (nodes.put name node).lookup k = if k = name then some node else nodes.lookup k := by
  by_cases hk : k = name
  · simp [put, hk]
  · have hb : (k == name) = false := beq_false_of_ne hk
    simp [put, List.lookup_cons, hb, lookup_erase, hk]

theorem lookup_change {f : Nodes → Nodes} {name k : String} {rest : Location} {nodes : Nodes} :
    (nodes.change f (name :: rest)).lookup k =
      (nodes.lookup k).map fun node =>
        if k = name then node.mapInside (Nodes.change f rest) else node := by
  induction nodes with
  | nil => simp [change]
  | cons n others ih =>
    obtain ⟨key, node⟩ := n
    by_cases hk : k = key
    · subst hk; simp [change]
    · have hb : (k == key) = false := beq_false_of_ne hk
      simpa [change, List.lookup_cons, hb] using ih

end Nodes

/-! ## Trees -/

/-- Files and directories by name. -/
structure Tree where
  nodes : Nodes

namespace Tree

/-- The directory that holds everything. -/
def root (t : Tree) : Node := .directory t.nodes

/-- What is at a location. -/
def get? (t : Tree) (l : Location) : Option Entry := (t.root.get? l).map Node.entry

/-- The tree without entries. -/
def empty : Tree := ⟨[]⟩

/-- The tree with a node in the directory at a location. -/
def put (t : Tree) (dir : Location) (name : String) (node : Node) : Tree :=
  ⟨t.nodes.change (Nodes.put name node) dir⟩

/-- The tree without an entry of the directory at a location, and without what
    is in it. -/
def erase (t : Tree) (dir : Location) (name : String) : Tree :=
  ⟨t.nodes.change (Nodes.erase name) dir⟩

/-- A leaf that is put into a directory is there, and all else is as before. -/
theorem get?_put {t : Tree} {dir : Location} {name : String} {node : Node}
    (home : t.get? dir = some .directory) (leaf : node.inside = [])
    (free : t.get? (dir ++ [name]) ≠ some .directory) (l : Location) :
    (t.put dir name node).get? l = if l = dir ++ [name] then some node.entry else t.get? l := by
  obtain ⟨nodes⟩ := t
  simp only [get?, root, put] at *
  induction dir generalizing nodes l with
  | nil =>
    cases l with
    | nil => simp [Node.get?, Nodes.change, Node.entry]
    | cons k rest =>
      simp only [Node.get?, Nodes.change, Node.inside, Nodes.lookup_put, List.nil_append,
        List.cons.injEq]
      by_cases hk : k = name
      · subst hk
        cases rest with
        | nil => simp [Node.get?]
        | cons r rest =>
          have hfile : ∀ sub, nodes.lookup k = some sub → sub.inside = [] := by
            intro sub hsub
            cases sub with
            | file _ => rfl
            | directory _ => simp [Node.get?, Node.inside, hsub, Node.entry] at free
          cases hsub : nodes.lookup k with
          | none => simp [Node.get?, leaf]
          | some sub => simp [Node.get?, leaf, hfile sub hsub]
      · simp [hk]
  | cons d dir ih =>
    cases l with
    | nil => simp [Node.get?, Node.entry]
    | cons k rest =>
      simp only [Node.get?, Node.inside, Nodes.lookup_change, List.cons_append,
        List.cons.injEq] at *
      cases hsub : nodes.lookup k with
      | none =>
        have hk : k ≠ d := by rintro rfl; simp [hsub] at home
        simp [hk]
      | some sub =>
        by_cases hk : k = d
        · subst hk
          cases sub with
          | file _ => cases dir <;> simp [hsub, Node.get?, Node.entry, Node.inside] at home
          | directory inner =>
            simp only [hsub, Option.bind_some] at home free
            simpa [Node.mapInside] using ih rest inner home free
        · simp [hk]

/-- What is in an erased entry is gone with it, and all else is as before. -/
theorem get?_erase {t : Tree} {dir : Location} {name : String} (l : Location) :
    (t.erase dir name).get? l = if dir ++ [name] <+: l then none else t.get? l := by
  obtain ⟨nodes⟩ := t
  simp only [get?, root, erase]
  induction dir generalizing nodes l with
  | nil =>
    cases l with
    | nil => simp [Node.get?, Node.entry]
    | cons k rest =>
      by_cases hk : k = name
      · simp [Node.get?, Nodes.change, Node.inside, Nodes.lookup_erase, hk]
      · simp [Node.get?, Nodes.change, Node.inside, Nodes.lookup_erase, hk, Ne.symm hk]
  | cons d dir ih =>
    cases l with
    | nil => simp [Node.get?, Node.entry]
    | cons k rest =>
      simp only [Node.get?, Node.inside, Nodes.lookup_change, List.cons_append,
        List.cons_prefix_cons]
      cases nodes.lookup k with
      | none => simp
      | some sub =>
        by_cases hk : k = d
        · cases sub with
          | file _ => cases rest <;> simp [hk, Node.mapInside, Node.get?, Node.inside]
          | directory inner => simpa [hk, Node.mapInside] using ih rest inner
        · simp [hk, Ne.symm hk]

/-! ## Paths -/

/-- The names that lead from the root to a node and the nodes that they lead to,
    the last one first. -/
abbrev Way := List (String × Node)

/-- The node that a way leads to. -/
def reached (t : Tree) : Way → Node
  | [] => t.root
  | (_, node) :: _ => node

/-- The location that a way leads to. -/
def Way.location (way : Way) : Location := (way.map Prod.fst).reverse

/-- Looks a name up in a directory. -/
def search (name : String) (nodes : Nodes) : Except FileError Node :=
  if nameLimit < name.utf8ByteSize then .error .nameTooLong
  else
    match nodes.lookup name with
    | some node => .ok node
    | none => .error .noSuchFile

/-- Follows a piece of a path. -/
def step (t : Tree) (way : Way) (piece : String) : Except FileError Way :=
  match t.reached way with
  | .file _ => .error .notADirectory
  | .directory nodes =>
    if piece = ".." then .ok way.tail
    else if Path.moves piece then (search piece nodes).map fun node => (piece, node) :: way
    else .ok way

/-- Follows the pieces of a path from the root. -/
def walk (t : Tree) (pieces : List String) : Except FileError Way := pieces.foldlM t.step []

/-- What a path leads to, and where it is. -/
def find (t : Tree) (p : Path) : Except FileError (Location × Node) :=
  match p.fault? with
  | some e => .error e
  | none => (t.walk p.pieces).map fun way => (Way.location way, t.reached way)

/-- The pieces of a path without the slashes at its end. -/
def trimmed (p : Path) : List String :=
  (p.pieces.reverse.dropWhile fun piece => piece = "").reverse

/-- The directory that the last piece of a path is looked up in. -/
def home (t : Tree) (p : Path) : Except FileError (Location × Nodes) :=
  match p.fault? with
  | some e => .error e
  | none => do
    let way ← t.walk (trimmed p).dropLast
    match t.reached way with
    | .directory nodes => .ok (Way.location way, nodes)
    | .file _ => .error .notADirectory

/-- The name that some pieces end with, unless they end with dots. -/
def lastName (pieces : List String) : Option String :=
  pieces.getLast?.filter fun piece => Path.moves piece && piece != ".."

/-! ## Operations -/

/-- The bytes of a file. -/
def contents (t : Tree) (p : Path) : Except FileError ByteArray := do
  match (← t.find p).2 with
  | .file bytes => .ok bytes
  | .directory _ => .error .isADirectory

/-- The names of the entries of a directory. -/
def names (t : Tree) (p : Path) : Except FileError (List String) := do
  match (← t.find p).2 with
  | .directory nodes => .ok (nodes.map Prod.fst).eraseDups
  | .file _ => .error .notADirectory

/-- Gives a file these bytes.  The path of a file has no slash at its end. -/
def write (t : Tree) (p : Path) (bytes : ByteArray) : Except FileError Tree := do
  let (dir, nodes) ← t.home p
  match lastName p.pieces with
  | none => .error .isADirectory
  | some name =>
    match search name nodes with
    | .ok (.directory _) => .error .isADirectory
    | .ok (.file _) | .error .noSuchFile => .ok (t.put dir name (.file bytes))
    | .error e => .error e

/-- Makes a new directory. -/
def makeDirectory (t : Tree) (p : Path) : Except FileError Tree := do
  let (dir, nodes) ← t.home p
  match lastName (trimmed p) with
  | none => .error .alreadyExists
  | some name =>
    match search name nodes with
    | .ok _ => .error .alreadyExists
    | .error .noSuchFile => .ok (t.put dir name (.directory []))
    | .error e => .error e

/-- Removes a file. -/
def remove (t : Tree) (p : Path) : Except FileError Tree := do
  let (dir, nodes) ← t.home p
  match lastName p.pieces with
  | none => (t.find p).bind fun _ => .error .isADirectory
  | some name =>
    match ← search name nodes with
    | .file _ => .ok (t.erase dir name)
    | .directory _ => .error .isADirectory

/-- Changes a tree, or leaves it alone if that fails. -/
def change (f : Tree → Except FileError Tree) : StateM Tree (Except FileError Unit) := fun t =>
  match f t with
  | .ok changed => (.ok (), changed)
  | .error e => (.error e, t)

/-- Programs that run on a tree.  When a file was written is not known. -/
instance : FileSystem (StateM Tree) where
  kind p := return (← get).find p |>.map fun found => found.2.kind
  contents p := return (← get).contents p
  names p := return (← get).names p
  modified _ := return none
  write p bytes := change fun t => t.write p bytes
  makeDirectory p := change fun t => t.makeDirectory p
  remove p := change fun t => t.remove p

end Tree

end SchemaLoom
