/-
# Diagnostics

A diagnostic says what is wrong with a source, and on which line of which file. What is
wrong is a cause: a fault of the text, which cannot be read as a token, or a fault of the
syntax. Each cause has a name, a message and perhaps a tip.

Key definitions: `LexicalFault`, `SyntaxFault`, `Fault`, `Fault.message`, `Fault.tip?`,
`Diagnostic`.
-/
import ViperFrontend.Token.Basic

namespace Viper

/-- Why a piece of text is not a token. -/
inductive LexicalFault where
  /-- a character that starts no token -/
  | illegalCharacter (character : Char)
  /-- a number with two decimal points or more -/
  | malformedNumber (literal : String)
  /-- a string literal without its closing quote -/
  | unterminatedString
  /-- a block comment without its end -/
  | unterminatedComment
deriving DecidableEq, Repr, Inhabited

/-- Why a run of tokens is not a construct of the language. -/
inductive SyntaxFault where
  /-- another token was required -/
  | unexpectedToken (expected found : TokenKind) (text : String)
  /-- no expression starts with this token -/
  | expectedExpression (found : TokenKind) (text : String)
  /-- no data type starts with this token -/
  | expectedDataType (found : TokenKind) (text : String)
  /-- no member of a struct starts with this token -/
  | expectedStructMember (found : TokenKind) (text : String)
  /-- no item of a file starts with this token -/
  | expectedTopLevelItem (found : TokenKind) (text : String)
  /-- two items of a list stand side by side -/
  | missingComma (found : TokenKind)
  /-- an `elif` or `else` that follows no `if` -/
  | danglingElseClause (clause : TokenKind)
  /-- a number literal that stands for nothing: an integer of 2^64 or more, or a malformed float -/
  | numberTooLarge (literal : String)
  /-- a construct that is nested too deeply -/
  | nestingTooDeep (limit : Nat)
deriving DecidableEq, Repr, Inhabited

/-- What is wrong with a source. -/
inductive Fault where
  | lexical (fault : LexicalFault)
  | syntactic (fault : SyntaxFault)
deriving DecidableEq, Repr, Inhabited

/-- A kind of token and its text, as messages give what they found. -/
def TokenKind.describeText (kind : TokenKind) (text : String) : String :=
  kind.describe ++ " " ++ Text.quoteString text

namespace LexicalFault

/-- The name of the cause. -/
def name : LexicalFault → String
  | .illegalCharacter _ => "IllegalCharacter"
  | .malformedNumber _ => "MalformedNumber"
  | .unterminatedString => "UnterminatedString"
  | .unterminatedComment => "UnterminatedComment"

/-- What is wrong, in words. -/
def message : LexicalFault → String
  | .illegalCharacter character => "illegal character " ++ Text.quoteChar character
  | .malformedNumber literal => "malformed number literal " ++ Text.quoteString literal
  | .unterminatedString => "unterminated string literal"
  | .unterminatedComment => "unterminated block comment"

/-- What to do about it. -/
def tip? : LexicalFault → Option String
  | .illegalCharacter _ => none
  | .malformedNumber literal => some ("`" ++ literal ++ "` has more than one decimal point")
  | .unterminatedString => some "add a closing `\"`"
  | .unterminatedComment => some "add a closing `*/`"

end LexicalFault

namespace SyntaxFault

/-- The name of the cause. -/
def name : SyntaxFault → String
  | .unexpectedToken .. => "UnexpectedToken"
  | .expectedExpression .. => "ExpectedExpression"
  | .expectedDataType .. => "ExpectedDataType"
  | .expectedStructMember .. => "ExpectedStructMember"
  | .expectedTopLevelItem .. => "ExpectedTopLevelItem"
  | .missingComma _ => "MissingComma"
  | .danglingElseClause _ => "DanglingElseClause"
  | .numberTooLarge _ => "NumberParseError"
  | .nestingTooDeep _ => "NestingTooDeep"

/-- What is wrong, in words. -/
def message : SyntaxFault → String
  | .unexpectedToken expected found text =>
    "expected " ++ expected.describe ++ ", found " ++ found.describeText text
  | .expectedExpression found text => "expected expression, found " ++ found.describeText text
  | .expectedDataType found text => "expected data type, found " ++ found.describeText text
  | .expectedStructMember found text =>
    "expected struct field or procedure, found " ++ found.describeText text
  | .expectedTopLevelItem found text =>
    "expected procedure, struct or `let`, found " ++ found.describeText text
  | .missingComma found => "expected `,` between list items, found " ++ found.describe
  | .danglingElseClause clause => clause.describe ++ " clause without a preceding `if`"
  | .numberTooLarge literal => "error parsing number: " ++ Text.quoteString literal
  | .nestingTooDeep limit =>
    "nesting exceeds " ++ String.ofList (Nat.toDigits 10 limit) ++ " levels"

/-- What to do about it. -/
def tip? : SyntaxFault → Option String
  | .unexpectedToken .semicolon _ _ => some "did you miss a semicolon?"
  | .unexpectedToken .. => none
  | .expectedExpression found _ =>
    some ("an expression cannot start with " ++ found.describe)
  | .expectedDataType .. => some "types are written as a name, e.g. `i32` or `void`"
  | .expectedStructMember .. =>
    some "struct members are fields (`name :: type;`) or procedures"
  | .expectedTopLevelItem .. =>
    some "only procedures, structs and `let` declarations may appear at the top level"
  | .missingComma _ => some "separate list items with `,`"
  | .danglingElseClause clause => some (clause.describe ++ " must follow an `if` or `elif` body")
  | .numberTooLarge literal =>
    some ("Invalid number: `" ++ literal ++ "`, is it above the integer limit?")
  | .nestingTooDeep _ => some "split the construct into smaller procedures or temporaries"

end SyntaxFault

namespace Fault

/-- A fault of the text, not of the syntax. -/
def isLexical : Fault → Bool
  | .lexical _ => true
  | .syntactic _ => false

/-- The name of the cause. -/
def name : Fault → String
  | .lexical fault => fault.name
  | .syntactic fault => fault.name

/-- What is wrong, in words. -/
def message : Fault → String
  | .lexical fault => fault.message
  | .syntactic fault => fault.message

/-- What to do about it. -/
def tip? : Fault → Option String
  | .lexical fault => fault.tip?
  | .syntactic fault => fault.tip?

end Fault

/-- A fault at a line of a file. -/
structure Diagnostic where
  fault : Fault
  line : UInt32
  file : String
deriving DecidableEq, Repr, Inhabited

/-- A diagnostic on one line: file, line and message. -/
def Diagnostic.summary (d : Diagnostic) : String :=
  d.file ++ ":" ++ String.ofList (Nat.toDigits 10 d.line.toNat) ++ ": " ++ d.fault.message

end Viper
