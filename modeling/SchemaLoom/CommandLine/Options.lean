/-
  Options on a command line.

  An option begins with two dashes, or with one if it is a single letter.  It
  either is a flag or takes a value, which follows it or is attached with `=`.
  No option may be given twice.  What an option is not given may be taken from
  an environment variable.
-/

namespace SchemaLoom.CommandLine

/-- Why arguments are not carried out as a command. -/
inductive Stop where
  | help
  | version
  | noCommand
  | unknownCommand (name : String)
  | unknownOption (name : String)
  | unexpectedArgument (argument : String)
  | unexpectedValue (option : String)
  | missingValue (option : String)
  | invalidValue (option value : String)
  | repeated (option : String)
  | missing (option : String)
  deriving DecidableEq

/-- What an option is for. -/
inductive Role where
  /-- Takes any text. -/
  | text
  /-- Takes a text that is not empty. -/
  | path
  /-- Takes no value on the command line, and `true` or `false` from the
      environment. -/
  | flag
  /-- Ends the reading of the arguments. -/
  | stop (s : Stop)
  deriving DecidableEq

/-- An option that may be given. -/
structure OptionSpec where
  name : String
  role : Role
  letter : Option Char := none
  environmentName : Option String := none
  required : Bool := false

/-- The options that were given, with their values. -/
abbrev Settings := List (String × String)

/-- Whether a flag was given. -/
def Settings.flag (s : Settings) (name : String) : Bool := s.lookup name = some "true"

/-- The value that an option was given, or the empty text. -/
def Settings.value (s : Settings) (name : String) : String := (s.lookup name).getD ""

/-! ## Arguments -/

/-- What an argument looks like. -/
inductive Argument where
  /-- Two dashes alone: no options follow. -/
  | endOfOptions
  | long (name : String) (value : Option String)
  | short (letters : List Char)
  | plain (text : String)

/-- What an argument looks like.  A dash alone is no option. -/
def Argument.ofString (s : String) : Argument :=
  match s.toList with
  | ['-', '-'] => .endOfOptions
  | '-' :: '-' :: cs =>
    .long (String.ofList (cs.takeWhile fun c => c != '='))
      (match cs.dropWhile fun c => c != '=' with
        | _ :: value => some (String.ofList value)
        | [] => none)
  | '-' :: c :: cs => .short (c :: cs)
  | _ => .plain s

/-- Refuses a value that an option cannot have. -/
def OptionSpec.check (o : OptionSpec) (value : String) : Except Stop (String × String) :=
  let valid := match o.role with
    | .text => true
    | .path => value != ""
    | .flag => value == "true" || value == "false"
    | .stop _ => false
  if valid then .ok (o.name, value) else .error (.invalidValue o.name value)

/-- Adds an option that was given a value. -/
def Settings.give (s : Settings) (o : OptionSpec) (value : String) : Except Stop Settings := do
  if (s.lookup o.name).isSome then throw (.repeated o.name)
  return (← o.check value) :: s

/-- Adds an option that was given no value. -/
def Settings.giveFlag (s : Settings) (o : OptionSpec) : Except Stop Settings :=
  match o.role with
  | .flag => s.give o "true"
  | .stop stop => .error stop
  | .text | .path => .error (.missingValue o.name)

/-- Adds options that were given by their letters. -/
def Settings.giveLetters (s : Settings) (specs : List OptionSpec) (letters : List Char) :
    Except Stop Settings :=
  letters.foldlM (fun s c =>
    match specs.find? fun o => o.letter = some c with
    | some o => s.giveFlag o
    | none => .error (.unknownOption (String.singleton c))) s

/-- Whether an option of this role takes a value. -/
def Role.takesValue : Role → Bool
  | text | path => true
  | flag | stop _ => false

/-- Reads options up to the first argument that is none.  The arguments from
    there on are left over. -/
def readOptions (specs : List OptionSpec) (s : Settings) :
    List String → Except Stop (Settings × List String)
  | [] => .ok (s, [])
  | argument :: rest =>
    match Argument.ofString argument with
    | .plain _ => .ok (s, argument :: rest)
    | .endOfOptions =>
      match rest with
      | [] => .ok (s, [])
      | next :: _ => .error (.unexpectedArgument next)
    | .short letters => do readOptions specs (← s.giveLetters specs letters) rest
    | .long name attached =>
      match specs.find? fun o => o.name = name with
      | none => .error (.unknownOption name)
      | some o =>
        match attached with
        | some value =>
          if o.role.takesValue then do readOptions specs (← s.give o value) rest
          else .error (.unexpectedValue name)
        | none =>
          if o.role.takesValue then
            match rest with
            | [] => .error (.missingValue name)
            | value :: rest =>
              match Argument.ofString value with
              | .plain _ => do readOptions specs (← s.give o value) rest
              | _ => .error (.missingValue name)
          else do readOptions specs (← s.giveFlag o) rest

/-! ## Environment -/

/-- What an option that was not given is set to by the environment. -/
def OptionSpec.fromEnvironment (o : OptionSpec) (environment : String → Option String) :
    Except Stop Settings :=
  match o.environmentName.bind environment with
  | some value => return [← o.check value]
  | none => if o.required then .error (.missing o.name) else .ok []

/-- The options that were given and those that the environment sets. -/
def Settings.complete (s : Settings) (specs : List OptionSpec)
    (environment : String → Option String) : Except Stop Settings := do
  let missing := specs.filter fun o => (s.lookup o.name).isNone
  let added ← missing.mapM fun o => o.fromEnvironment environment
  return s ++ added.flatten

/-- The settings of arguments that are options only. -/
def settingsOf (specs : List OptionSpec) (environment : String → Option String)
    (arguments : List String) : Except Stop Settings := do
  let (given, left) ← readOptions specs [] arguments
  match left with
  | [] => given.complete specs environment
  | argument :: _ => .error (.unexpectedArgument argument)

end SchemaLoom.CommandLine
