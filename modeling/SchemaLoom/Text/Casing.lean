/-
  Naming styles.  A name in any common style is read as words, and written in
  snake_case or PascalCase.

  * `snakeChars` writes the words in lower case, joined by `_`;
  * `pascalChars` joins the capitalized words.  Not every list of words can be
    told apart again in PascalCase (`a_b` would become `AB`, which is one
    word), so the words are re-read from the capitalized text until they no
    longer change: what is written splits back into the words it was
    written from;
  * `canonicalValue` is the snake_case form that survives the trip through
    PascalCase.
-/
import SchemaLoom.Text.CaseMap

namespace SchemaLoom.Text

/-! ## Words of a name -/

/-- The characters between words. -/
def isSeparator (c : Char) : Bool := c == '_' || c == '-' || isBlank c

/-- Whether a capital `c` after `prev` starts a word: after a small letter or
    a digit, and as the last capital of an acronym, when a small letter is
    `next` (`HTTPServer` is `http_server`). -/
def startsWord (prev c : Char) (next : Option Char) : Bool :=
  isUppercase c &&
    (isLowercase prev || prev.isDigit || (isUppercase prev && next.any isLowercase))

/-- What stands before the character being read: nothing yet, a gap after
    some word, or the character `prev` of the same word. -/
inductive Joint where
  | start
  | gap
  | after (prev : Char)
  deriving DecidableEq

/-- A separator ends the word being read; before the first word it is
    nothing. -/
def Joint.separated : Joint → Joint
  | .start => .start
  | _ => .gap

/-- Whether a word boundary is written before `c`. -/
def Joint.breaks (j : Joint) (c : Char) (next : Option Char) : Bool :=
  match j with
  | .start => false
  | .gap => true
  | .after prev => startsWord prev c next

/-- The snake_case form of the characters that follow `j`. -/
def snakeFrom (j : Joint) : List Char → List Char
  | [] => []
  | c :: rest =>
    if isSeparator c then snakeFrom j.separated rest
    else
      (if j.breaks c rest.head? then ['_'] else []) ++ lowerCase c ++ snakeFrom (.after c) rest

/-- The words of a name in lower case, joined by `_`. -/
def snakeChars (cs : List Char) : List Char := snakeFrom .start cs

/-- The snake_case form of a name. -/
def snakeCase (s : String) : String := String.ofList (snakeChars s.toList)

/-! ## PascalCase -/

/-- The words of a snake_case text with their first characters capitalized,
    without the joints; `first` says that a word starts here. -/
def capitalizeFrom (first : Bool) : List Char → List Char
  | [] => []
  | c :: rest =>
    if c = '_' then capitalizeFrom true rest
    else (if first then upperCase c else [c]) ++ capitalizeFrom false rest

/-- The capitalized words of a snake_case text, joined. -/
def capitalizeWords (snake : List Char) : List Char := capitalizeFrom true snake

/-- The words as they are read back from their capitalized form. -/
def resplit (snake : List Char) : List Char := snakeChars (capitalizeWords snake)

/-- Re-reads the words until they no longer change, at most `limit` times. -/
def settle : Nat → List Char → List Char
  | 0, snake => snake
  | limit + 1, snake => if resplit snake = snake then snake else settle limit (resplit snake)

/-- A number of re-readings after which words of `n` characters are settled.
    A re-reading either replaces a first character by its stable spelling,
    of at most three characters, or removes a boundary, up to two more for
    capitals without a small form. -/
def settleLimit (n : Nat) : Nat := 3 * (n + 1) * (n + 1)

/-- The words of a name that survive being written in PascalCase. -/
def settledChars (cs : List Char) : List Char :=
  let snake := snakeChars cs
  settle (settleLimit snake.length) snake

/-- The PascalCase form of a name. -/
def pascalChars (cs : List Char) : List Char := capitalizeWords (settledChars cs)

/-- The PascalCase form of a name. -/
def pascalCase (s : String) : String := String.ofList (pascalChars s.toList)

/-- The snake_case form that a value has after being written in PascalCase and
    read back. -/
def canonicalValue (s : String) : String :=
  String.ofList (snakeChars (pascalChars s.toList))

end SchemaLoom.Text
