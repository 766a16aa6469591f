/-
  Why a generated module is not understood.

  A text may not consist of tokens, its tokens may come in another order than
  the grammar has them, and what the grammar accepts may still declare nothing
  that a schema can hold (`Unsupported`).
-/
import SchemaLoom.Source.Token
import SchemaLoom.Json.Value

namespace SchemaLoom.Source

/-- The parts of a text that end with a mark of their own. -/
inductive Delimited where
  | blockComment
  | string
  | template
  deriving DecidableEq

/-- How a delimited part is named in a message. -/
def Delimited.shown : Delimited → String
  | blockComment => "block comment"
  | string => "string literal"
  | template => "template literal"

/-- What the grammar has at a place. -/
inductive Expectation where
  | token (t : Token)
  | identifier
  | keyword (word : String)
  | string
  | argument
  | sqlTemplate
  | endOfInput
  deriving DecidableEq

/-- How an expectation is named in a message. -/
def Expectation.shown : Expectation → String
  | token t => t.shown
  | identifier => "identifier"
  | keyword word => "'" ++ word ++ "'"
  | string => "string literal"
  | argument => "literal argument"
  | sqlTemplate => "sql template literal"
  | endOfInput => "end of input"

/-- Declarations of the right form that no schema holds. -/
inductive Unsupported where
  /-- An integer beyond 64 bits. -/
  | number (digits : String)
  | enumAsColumn
  | constructorArguments (constructor : String)
  | configKey (key constructor : String)
  | length (value : Int64)
  | qualifier (name : String) (argumentCount : Nat)
  | sqlDefault (body : String)
  | defaultArgument
  | emptyEnum (name : String)
  | nestedHelper (name helper : String)
  /-- A column of a composite key that belongs to another table. -/
  | keyOwner (owner found : String)
  deriving DecidableEq

/-- The wording of each unsupported declaration. -/
def Unsupported.message : Unsupported → String
  | number digits => "number " ++ digits ++ " is out of range"
  | enumAsColumn => "pgEnum declares an enum type, not a column"
  | constructorArguments constructor =>
    constructor ++ "() expects a column name and an optional config object"
  | configKey key constructor =>
    "unsupported config key '" ++ key ++ "' for " ++ constructor ++ "()"
  | length value => "invalid length " ++ Json.integerText value.toInt
  | qualifier name argumentCount =>
    "unsupported qualifier '." ++ name ++ "()' with " ++ toString argumentCount ++ " argument(s)"
  | sqlDefault body => "unsupported SQL default `" ++ body ++ "`"
  | defaultArgument => "default() expects a literal or sql`fn()` value"
  | emptyEnum name => "enum '" ++ name ++ "' declares no values"
  | nestedHelper name helper =>
    "helper '" ++ name ++ "' spreads '" ++ helper ++ "'; helpers cannot nest"
  | keyOwner owner found =>
    "composite key column must reference '" ++ owner ++ "', found '" ++ found ++ "'"

/-- A fault of a text, with its line. -/
inductive Error where
  | unexpectedCharacter (c : Char) (line : Nat)
  | unterminated (part : Delimited) (line : Nat)
  | expected (wanted : Expectation) (found : Option Token) (line : Nat)
  | unsupported (what : Unsupported) (line : Nat)
  deriving DecidableEq

/-- The line of a fault. -/
def Error.line : Error → Nat
  | unexpectedCharacter _ line | unterminated _ line | expected _ _ line | unsupported _ line =>
    line

/-- What happened, without the line. -/
def Error.detail : Error → String
  | unexpectedCharacter c _ => "unexpected character '" ++ c.toString ++ "'"
  | unterminated part _ => "unterminated " ++ part.shown
  | expected wanted found _ =>
    "expected " ++ wanted.shown ++ ", found " ++ (found.map Token.shown).getD "end of input"
  | unsupported what _ => what.message

/-- The wording of a fault with its line. -/
def Error.message (e : Error) : String := "line " ++ toString e.line ++ ": " ++ e.detail

end SchemaLoom.Source
