/-
  Files and directories, as programs see them.

  `FileSystem m` says that a program in `m` can look at files and change them.
  Every operation answers with a value or with the reason why it failed; what
  is derived from the operations here is the same for every file system.
-/
import SchemaLoom.Files.Path

namespace SchemaLoom

/-- Why an operation on files failed. -/
inductive FileError where
  | noSuchFile
  | alreadyExists
  | notADirectory
  | isADirectory
  /-- A name or a path is longer than the file system allows. -/
  | nameTooLong
  /-- A path contains the character that ends texts for the operating system. -/
  | nulInPath
  /-- The bytes of a file are not the UTF-8 form of a text. -/
  | notText
  /-- Any other reason, as the operating system tells it. -/
  | other (message : String)
  deriving DecidableEq

/-- The text of a failure. -/
def FileError.message : FileError → String
  | noSuchFile => "No such file or directory (os error 2)"
  | alreadyExists => "File exists (os error 17)"
  | notADirectory => "Not a directory (os error 20)"
  | isADirectory => "Is a directory (os error 21)"
  | nameTooLong => "File name too long (os error 36)"
  | nulInPath => "file name contained an unexpected NUL byte"
  | notText => "stream did not contain valid UTF-8"
  | other message => message

/-- The number of bytes that a name may have. -/
def nameLimit : Nat := 255

/-- The number of bytes that a path may have. -/
def pathLimit : Nat := 4095

/-- Why a path leads nowhere in any file system. -/
def Path.fault? (p : Path) : Option FileError :=
  if p.pieces.any fun piece => piece.toList.contains '\x00' then some .nulInPath
  else if p.isEmpty then some .noSuchFile
  else if pathLimit < p.byteLength then some .nameTooLong
  else none

/-- What a path may lead to. -/
inductive EntryKind where
  | file
  | directory
  deriving DecidableEq

/-- The operations on files. -/
class FileSystem (m : Type → Type) where
  /-- What the path leads to. -/
  kind : Path → m (Except FileError EntryKind)
  /-- The bytes of a file. -/
  contents : Path → m (Except FileError ByteArray)
  /-- The names of the entries of a directory, in any order. -/
  names : Path → m (Except FileError (List String))
  /-- When a file was last written, if that is known. -/
  modified : Path → m (Option String)
  /-- Gives a file these bytes; the file may be new, but not its directory. -/
  write : Path → ByteArray → m (Except FileError Unit)
  /-- Makes a new directory in one that is there. -/
  makeDirectory : Path → m (Except FileError Unit)
  /-- Removes a file. -/
  remove : Path → m (Except FileError Unit)

namespace FileSystem

variable {m : Type → Type} [Monad m] [FileSystem m]

/-! ## Looking -/

/-- Whether the path leads to a file. -/
def isFile (p : Path) : m Bool := do
  return (← kind p).toOption = some .file

/-- Whether the path leads to a directory. -/
def isDirectory (p : Path) : m Bool := do
  return (← kind p).toOption = some .directory

/-- Whether the path leads to anything.  Not to find out is a failure, but a
    missing entry is none. -/
def isThere (p : Path) : m (Except FileError Bool) := do
  match ← kind p with
  | .ok _ => return .ok true
  | .error .noSuchFile => return .ok false
  | .error e => return .error e

/-- The text of a file. -/
def readText (p : Path) : m (Except FileError String) := do
  match ← contents p with
  | .ok bytes =>
    match String.fromUTF8? bytes with
    | some text => return .ok text
    | none => return .error .notText
  | .error e => return .error e

/-! ## Changing -/

/-- Makes the first of some directories, each of which is in the one behind it,
    and before it those that it needs.  A directory that is there is left
    alone. -/
def makeDirectories : List Path → m (Except FileError Unit)
  | [] => return .ok ()
  | p :: outer => do
    match ← makeDirectory p with
    | .ok _ => return .ok ()
    | .error .noSuchFile =>
      match ← makeDirectories outer with
      | .ok _ => settle p (← makeDirectory p)
      | .error e => return .error e
    | .error e => settle p (.error e)
where
  /-- A directory that could not be made does if it is there. -/
  settle (p : Path) : Except FileError Unit → m (Except FileError Unit)
    | .ok _ => return .ok ()
    | .error e => return if ← isDirectory p then .ok () else .error e

/-- Gives a file this text, and makes the directories that it needs. -/
def replaceText (p : Path) (text : String) : m (Except FileError Unit) := do
  match ← makeDirectories p.parents with
  | .ok _ => write p text.toUTF8
  | .error e => return .error e

/-- Gives a file this text unless that would overwrite one against the wish of
    the caller.  Tells whether the file was written. -/
def writeText (p : Path) (text : String) (overwrite : Bool) : m (Except FileError Bool) := do
  let there ← if overwrite then pure (.ok false) else isThere p
  match there with
  | .ok true => return .ok false
  | .ok false => return (← replaceText p text).map fun _ => true
  | .error e => return .error e

/-- Removes a file if there is one.  Tells whether there was. -/
def removeIfThere (p : Path) : m (Except FileError Bool) := do
  match ← isThere p with
  | .ok true => return (← remove p).map fun _ => true
  | .ok false => return .ok false
  | .error e => return .error e

end FileSystem

end SchemaLoom
