/-
# The kinds of token of the Viper language

A token is an identifier, a literal, a keyword, a punctuator or an operator; two more
kinds stand for text that is none of these and for the end of the file. A keyword,
punctuator or operator is always spelled the same way (`TokenKind.symbol?`), and the
reserved words are the keywords' spellings (`TokenKind.ofReserved?`).

Key definitions: `TokenKind`, `TokenKind.symbol?`, `TokenKind.ofReserved?`,
`TokenKind.describe`.
-/
namespace Viper

/-- What a token is. -/
inductive TokenKind where
  | illegal | eof | identifier | integer | float | string
  | kwLet | kwDefine | kwProc | kwReturn | kwStruct | kwEnum | kwModule | kwVoid | kwFor
  | kwWhile | kwDo | kwIf | kwElif | kwElse | kwTrue | kwFalse
  | openParen | closeParen | openCurly | closeCurly | openBracket | closeBracket | semicolon
  | comma | dot | colon | doubleColon
  | assignment | equals | bang | notEquals | less | lessEquals | greater | greaterEquals
  | leftShift | rightShift | plus | dash | star | slash | percent | ampersand | pipe | caret
  | tilde | and | or
  | plusEquals | minusEquals | starEquals | slashEquals | percentEquals | leftShiftEquals
  | rightShiftEquals | andEquals | orEquals | xorEquals | tildeEquals
deriving DecidableEq, Repr, Inhabited

namespace TokenKind

/-- Every kind. -/
def all : List TokenKind :=
  [.illegal, .eof, .identifier, .integer, .float, .string, .kwLet, .kwDefine, .kwProc,
   .kwReturn, .kwStruct, .kwEnum, .kwModule, .kwVoid, .kwFor, .kwWhile, .kwDo, .kwIf, .kwElif,
   .kwElse, .kwTrue, .kwFalse, .openParen, .closeParen, .openCurly, .closeCurly, .openBracket,
   .closeBracket, .semicolon, .comma, .dot, .colon, .doubleColon, .assignment, .equals, .bang,
   .notEquals, .less, .lessEquals, .greater, .greaterEquals, .leftShift, .rightShift, .plus,
   .dash, .star, .slash, .percent, .ampersand, .pipe, .caret, .tilde, .and, .or, .plusEquals,
   .minusEquals, .starEquals, .slashEquals, .percentEquals, .leftShiftEquals,
   .rightShiftEquals, .andEquals, .orEquals, .xorEquals, .tildeEquals]

/-- The name of a kind in a token listing. -/
def name : TokenKind → String
  | .illegal => "Illegal"
  | .eof => "EOF"
  | .identifier => "Identifier"
  | .integer => "Integer"
  | .float => "Float"
  | .string => "String"
  | .kwLet => "Let"
  | .kwDefine => "Define"
  | .kwProc => "Proc"
  | .kwReturn => "Return"
  | .kwStruct => "Struct"
  | .kwEnum => "Enum"
  | .kwModule => "Module"
  | .kwVoid => "Void"
  | .kwFor => "For"
  | .kwWhile => "While"
  | .kwDo => "Do"
  | .kwIf => "If"
  | .kwElif => "Elif"
  | .kwElse => "Else"
  | .kwTrue => "True"
  | .kwFalse => "False"
  | .openParen => "OpenParen"
  | .closeParen => "CloseParen"
  | .openCurly => "OpenCurly"
  | .closeCurly => "CloseCurly"
  | .openBracket => "OpenBracket"
  | .closeBracket => "CloseBracket"
  | .semicolon => "Semicolon"
  | .comma => "Comma"
  | .dot => "Dot"
  | .colon => "Colon"
  | .doubleColon => "DoubleColon"
  | .assignment => "Assignment"
  | .equals => "Equals"
  | .bang => "Bang"
  | .notEquals => "NotEquals"
  | .less => "Less"
  | .lessEquals => "LessEquals"
  | .greater => "Greater"
  | .greaterEquals => "GreaterEquals"
  | .leftShift => "LeftShift"
  | .rightShift => "RightShift"
  | .plus => "Plus"
  | .dash => "Dash"
  | .star => "Star"
  | .slash => "Slash"
  | .percent => "Percent"
  | .ampersand => "Ampersand"
  | .pipe => "Pipe"
  | .caret => "Caret"
  | .tilde => "Tilde"
  | .and => "And"
  | .or => "Or"
  | .plusEquals => "PlusEquals"
  | .minusEquals => "MinusEquals"
  | .starEquals => "StarEquals"
  | .slashEquals => "SlashEquals"
  | .percentEquals => "PercentEquals"
  | .leftShiftEquals => "LeftShiftEquals"
  | .rightShiftEquals => "RightShiftEquals"
  | .andEquals => "AndEquals"
  | .orEquals => "OrEquals"
  | .xorEquals => "XorEquals"
  | .tildeEquals => "TildeEquals"

/-- The kind with the given name. -/
def ofName? (name : String) : Option TokenKind :=
  all.find? (·.name == name)

/-- The spelling of a kind that is always spelled the same way. -/
def symbol? : TokenKind → Option String
  | .illegal | .eof | .identifier | .integer | .float | .string => none
  | .kwLet => some "let"
  | .kwDefine => some "define"
  | .kwProc => some "proc"
  | .kwReturn => some "return"
  | .kwStruct => some "struct"
  | .kwEnum => some "enum"
  | .kwModule => some "module"
  | .kwVoid => some "void"
  | .kwFor => some "for"
  | .kwWhile => some "while"
  | .kwDo => some "do"
  | .kwIf => some "if"
  | .kwElif => some "elif"
  | .kwElse => some "else"
  | .kwTrue => some "true"
  | .kwFalse => some "false"
  | .openParen => some "("
  | .closeParen => some ")"
  | .openCurly => some "\x7b"
  | .closeCurly => some "\x7d"
  | .openBracket => some "["
  | .closeBracket => some "]"
  | .semicolon => some ";"
  | .comma => some ","
  | .dot => some "."
  | .colon => some ":"
  | .doubleColon => some "::"
  | .assignment => some "="
  | .equals => some "=="
  | .bang => some "!"
  | .notEquals => some "!="
  | .less => some "<"
  | .lessEquals => some "<="
  | .greater => some ">"
  | .greaterEquals => some ">="
  | .leftShift => some "<<"
  | .rightShift => some ">>"
  | .plus => some "+"
  | .dash => some "-"
  | .star => some "*"
  | .slash => some "/"
  | .percent => some "%"
  | .ampersand => some "&"
  | .pipe => some "|"
  | .caret => some "^"
  | .tilde => some "~"
  | .and => some "&&"
  | .or => some "||"
  | .plusEquals => some "+="
  | .minusEquals => some "-="
  | .starEquals => some "*="
  | .slashEquals => some "/="
  | .percentEquals => some "%="
  | .leftShiftEquals => some "<<="
  | .rightShiftEquals => some ">>="
  | .andEquals => some "&="
  | .orEquals => some "|="
  | .xorEquals => some "^="
  | .tildeEquals => some "~="

/-- The spelling of a kind, empty if it varies. -/
def spelling (k : TokenKind) : String :=
  k.symbol?.getD ""

/-- The keywords. -/
def keywords : List TokenKind :=
  [.kwLet, .kwDefine, .kwProc, .kwReturn, .kwStruct, .kwEnum, .kwModule, .kwVoid, .kwFor,
   .kwWhile, .kwDo, .kwIf, .kwElif, .kwElse, .kwTrue, .kwFalse]

/-- A keyword is spelled as a reserved word. -/
def isKeyword (k : TokenKind) : Bool :=
  keywords.contains k

/-- The keyword a reserved word stands for. -/
def ofReserved? (word : String) : Option TokenKind :=
  keywords.find? (·.symbol? == some word)

/-- How a message speaks of a kind: its spelling between backticks, or a noun. -/
def describe (k : TokenKind) : String :=
  match k.symbol? with
  | some symbol => "`" ++ symbol ++ "`"
  | none =>
    match k with
    | .illegal => "illegal token"
    | .eof => "end of file"
    | .identifier => "identifier"
    | .integer => "integer literal"
    | .float => "float literal"
    | _ => "string literal"

/-- `(`, `[` and `{`. -/
def isOpening : TokenKind → Bool
  | .openParen | .openBracket | .openCurly => true
  | _ => false

/-- `)`, `]` and `}`. -/
def isClosing : TokenKind → Bool
  | .closeParen | .closeBracket | .closeCurly => true
  | _ => false

end TokenKind
end Viper
