/-
  The program: the command line on the files of the disk.
-/
import SchemaLoom.CommandLine.Run
import SchemaLoom.Text.Timestamp
import Std.Time.DateTime.Timestamp

namespace SchemaLoom

/-- The number and the text that the operating system gives an error. -/
def systemError? : IO.Error → Option (UInt32 × String)
  | .alreadyExists _ code details | .invalidArgument _ code details
  | .permissionDenied _ code details | .resourceExhausted _ code details
  | .inappropriateType _ code details | .noSuchThing _ code details
  | .interrupted _ code details | .noFileOrDirectory _ code details
  | .otherError code details | .resourceBusy code details | .resourceVanished code details
  | .unsupportedOperation code details | .hardwareFault code details
  | .unsatisfiedConstraints code details | .illegalOperation code details
  | .protocolError code details | .timeExpired code details => some (code, details)
  | .unexpectedEof | .userError _ => none

/-- The error of a number, which may come negated. -/
def FileError.ofNumber (code : UInt32) (details : String) : FileError :=
  let number := if code < 0x80000000 then code else 0 - code
  if number = 2 then .noSuchFile
  else if number = 17 then .alreadyExists
  else if number = 20 then .notADirectory
  else if number = 21 then .isADirectory
  else if number = 36 then .nameTooLong
  else .other (details ++ " (os error " ++ toString number ++ ")")

/-- Why an operation on the disk failed. -/
def FileError.ofIO (e : IO.Error) : FileError :=
  match systemError? e with
  | some (code, details) => .ofNumber code details
  | none => .other (toString e)

/-- The result of an operation on the disk, or the reason why it failed. -/
def onDisk {α : Type} (p : Path) (operation : String → IO α) : IO (Except FileError α) := do
  match p.fault? with
  | some e => return .error e
  | none =>
    try return .ok (← operation p.shown)
    catch e => return .error (.ofIO e)

/-- What the disk tells about a path. -/
def diskMetadata (p : Path) : IO (Except FileError IO.FS.Metadata) :=
  onDisk p fun path => (IO.FS.DirEntry.mk path "").root.metadata

/-- What a path leads to on the disk. -/
def diskKind (p : Path) : IO (Except FileError EntryKind) := do
  return (← diskMetadata p).map fun found =>
    match found.type with
    | .dir => .directory
    | _ => .file

instance : FileSystem IO where
  kind := diskKind
  contents p := onDisk p fun path => IO.FS.readBinFile path
  names p := do
    let listed ← onDisk p fun path => (IO.FS.DirEntry.mk path "").root.readDir
    return listed.map fun entries => entries.toList.map fun entry => entry.fileName
  modified p := do
    return (← diskMetadata p).toOption.map fun found =>
      Text.timestamp found.modified.sec found.modified.nsec.toNat
  write p bytes := onDisk p fun path => IO.FS.writeBinFile path bytes
  makeDirectory p := onDisk p fun path => IO.FS.createDir path
  remove p := do
    match ← diskKind p with
    | .ok .directory => return .error .isADirectory
    | _ => onDisk p fun path => IO.FS.removeFile path

/-- The text of the current time. -/
def currentTime : IO String := do
  let now := (← Std.Time.Timestamp.now).toNanosecondsSinceUnixEpoch.val
  return Text.timestamp (now.fdiv 1000000000) (now.fmod 1000000000).toNat

end SchemaLoom

open SchemaLoom in
/-- Carries out the command line and shows what it leads to. -/
def main (arguments : List String) : IO UInt32 := do
  let known ← CommandLine.environmentNames.filterMapM fun name =>
    return (← IO.getEnv name).map fun value => (name, value)
  let outcome ← CommandLine.run (fun name => known.lookup name) (← currentTime) arguments
  IO.print outcome.stdout
  IO.eprint outcome.stderr
  return outcome.code
