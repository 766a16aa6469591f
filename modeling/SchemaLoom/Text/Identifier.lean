/-
  Names and texts in the generated language: what may stand unquoted as an object
  key, what may be declared, and the literals in single quotes.
-/
import SchemaLoom.Text.Letter
import SchemaLoom.Text.Numeric

namespace SchemaLoom.Text

/-- Letters, `_` and `$` start an identifier. -/
def isIdentifierStart (c : Char) : Bool := isAlphabetic c || c == '_' || c == '$'

/-- An identifier goes on with letters, numerals, `_` and `$`. -/
def isIdentifierPart (c : Char) : Bool :=
  isAlphabetic c || isNumeric c || c == '_' || c == '$'

/-- Whether the characters form an identifier. -/
def isIdentifierChars : List Char → Bool
  | [] => false
  | c :: rest => isIdentifierStart c && rest.all isIdentifierPart

/-- Whether a name may stand unquoted as an object key or after a dot. -/
def isIdentifier (name : String) : Bool := isIdentifierChars name.toList

/-- The words that cannot be declared. -/
def reservedWords : List String := [
  "await", "break", "case", "catch", "class", "const", "continue", "debugger", "default",
  "delete", "do", "else", "enum", "export", "extends", "false", "finally", "for", "function",
  "if", "implements", "import", "in", "instanceof", "interface", "let", "new", "null",
  "package", "private", "protected", "public", "return", "static", "super", "switch", "this",
  "throw", "true", "try", "typeof", "var", "void", "while", "with", "yield"]

/-- Whether a name may be declared: an identifier that is not reserved. -/
def isBindingName (name : String) : Bool := isIdentifier name && !reservedWords.contains name

/-- A character inside a literal: the backslash, the quote and the line end
    are escaped, all else stands for itself. -/
def quoteChar (c : Char) : List Char :=
  if c = '\\' then ['\\', '\\']
  else if c = '\'' then ['\\', '\'']
  else if c = '\n' then ['\\', 'n']
  else [c]

/-- The literal of a text. -/
def quoteChars (cs : List Char) : List Char := '\'' :: (cs.flatMap quoteChar ++ ['\''])

/-- The literal of a text. -/
def quote (s : String) : String := String.ofList (quoteChars s.toList)

end SchemaLoom.Text
