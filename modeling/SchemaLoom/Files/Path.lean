/-
  Paths.

  A path is shown as it was given, so it is kept as the pieces between its
  slashes, empty pieces included: `a//b/` has two pieces with a letter and two
  empty ones.
-/

namespace SchemaLoom

/-- The pieces between the slashes of a text. -/
def splitSlashes : List Char → List (List Char)
  | [] => [[]]
  | c :: cs =>
    if c = '/' then [] :: splitSlashes cs
    else
      match splitSlashes cs with
      | [] => [[c]]
      | piece :: pieces => (c :: piece) :: pieces

/-- A path, as the pieces between its slashes. -/
structure Path where
  pieces : List String
  deriving DecidableEq

namespace Path

/-- The path of a text. -/
def ofString (s : String) : Path := ⟨(splitSlashes s.toList).map String.ofList⟩

/-- The text of a path. -/
def shown (p : Path) : String := "/".intercalate p.pieces

/-- Whether the path is the empty text, which leads nowhere. -/
def isEmpty (p : Path) : Bool := p.pieces = [] || p.pieces = [""]

/-- Whether the path begins with a slash. -/
def isAbsolute (p : Path) : Bool :=
  match p.pieces with
  | "" :: _ :: _ => true
  | _ => false

/-- The path `q` as seen from `p`.  A slash is put between them unless `p` is
    empty or ends with one. -/
def join (p q : Path) : Path :=
  if q.isAbsolute then q
  else if p.pieces.getLast? = some "" then ⟨p.pieces.dropLast ++ q.pieces⟩
  else ⟨p.pieces ++ q.pieces⟩

/-- The path of an entry of a directory. -/
def child (p : Path) (name : String) : Path := p.join (ofString name)

/-- Whether a piece leads anywhere else than where one is. -/
def moves (piece : String) : Bool := piece != "" && piece != "."

/-- The paths above the end of a path, whose pieces are given in reverse: the
    path itself first, without what follows its last name, and each of the
    others without the last name of the one before it.  Neither the empty path
    nor the root is among them. -/
def above : List String → List Path
  | [] => []
  | [first] => if first = "" then [] else [⟨[first]⟩]
  | piece :: before =>
    if moves piece then ⟨(piece :: before).reverse⟩ :: above before else above before

/-- The directories that a path leads through, the innermost first. -/
def parents (p : Path) : List Path := (above p.pieces.reverse).tail

/-- The number of bytes of a path. -/
def byteLength (p : Path) : Nat := p.pieces.foldl (fun n piece => n + piece.utf8ByteSize + 1) 0 - 1

/-- How the files of a directory are named when it is listed: without the dots
    that the path begins with, and without empty pieces.  An empty piece right
    behind such a dot leads nowhere. -/
def listed (p : Path) : Option Path :=
  if p.isAbsolute then some ⟨"" :: p.pieces.filter fun piece => piece != ""⟩
  else
    let rest := p.pieces.dropWhile fun piece => piece = "."
    if p.pieces.head? = some "." && rest.head? = some "" then none
    else some ⟨rest.filter fun piece => piece != ""⟩

end Path

end SchemaLoom
