/-
  Tokens of the language in which schemas are generated: the part of
  TypeScript that the generated modules need.
-/

namespace SchemaLoom.Source

/-- A token. -/
inductive Token where
  | identifier (name : String)
  /-- A string literal, by the text it denotes. -/
  | string (text : String)
  /-- An integer literal, as it is written. -/
  | number (digits : String)
  /-- A template literal, by the text between its backticks. -/
  | template (text : String)
  | leftParen
  | rightParen
  | leftBrace
  | rightBrace
  | leftBracket
  | rightBracket
  | comma
  | colon
  | semicolon
  | dot
  | spread
  | arrow
  | equals
  deriving DecidableEq

/-- How a token is named in a message. -/
def Token.shown : Token → String
  | identifier name => "identifier '" ++ name ++ "'"
  | string text => "string '" ++ text ++ "'"
  | number digits => "number " ++ digits
  | template text => "template `" ++ text ++ "`"
  | leftParen => "'('"
  | rightParen => "')'"
  | leftBrace => "'\x7b'"
  | rightBrace => "'\x7d'"
  | leftBracket => "'['"
  | rightBracket => "']'"
  | comma => "','"
  | colon => "':'"
  | semicolon => "';'"
  | dot => "'.'"
  | spread => "'...'"
  | arrow => "'=>'"
  | equals => "'='"

/-- A token and the line, from 1, on which it starts. -/
structure Located where
  token : Token
  line : Nat
  deriving DecidableEq

/-- The tokens of a text, and the line on which the text ends. -/
structure Stream where
  tokens : List Located
  endLine : Nat
  deriving DecidableEq

/-- The next token, or `none` at the end. -/
def Stream.current (s : Stream) : Option Token := s.tokens.head?.map Located.token

/-- The line of the next token, or of the end. -/
def Stream.line (s : Stream) : Nat := (s.tokens.head?.map Located.line).getD s.endLine

end SchemaLoom.Source
