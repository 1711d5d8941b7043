/-
# Expressions

An expression is a chain of operands and binary operators; the operators group by their
precedence. An operand is a literal, a name with what follows it (a call, an index or a
member), a group in parentheses, or one of these behind a prefix operator. Members group to
the right: `a.b.c` is `a.(b.c)`.

Every operand, every operator inside the right operand of another one and every member is
one level further in. The parsers of that level are given as `Inner`, and `Inner.ofRoom`
builds them for the levels that are left.

Key definitions: `Expression.Inner`, `Expression.parse`, `Expression.binary`,
`Expression.primary`, `Expression.Inner.ofRoom`.
-/
import ViperFrontend.Number.Literal
import ViperFrontend.Parser.Recovery
import ViperFrontend.Token.Precedence

namespace Viper

theorem TokenKind.isBoundary_of_precedence? {kind : TokenKind} {p : Precedence}
    (h : kind.precedence? = some p) : kind.isBoundary = false := by
  cases kind <;> simp_all [TokenKind.precedence?, TokenKind.isBoundary]

namespace Expression

open Viper.Parser

/-- The parsers for what an expression holds one level further in. -/
structure Inner where
  /-- an operand -/
  primary : Attempt NodeId
  /-- an operator and its right operand, behind a left operand -/
  binary : NodeId → Precedence → Attempt NodeId
  /-- a name and what follows it -/
  identifier : Attempt NodeId
  moves_binary : ∀ (left : NodeId) (p : Precedence) (s : State),
    s.current.kind.isBoundary = false → (binary left p).run.Moves s

variable (inner : Inner)

/-- The precedence of the operator at the current token. -/
def operator? (s : State) : Option Precedence :=
  s.current.kind.precedence?

theorem moves_binary_of_filter {q : Precedence → Bool} (p : Precedence) (right : NodeId)
    (s : State) (h : (operator? s).filter q = some p) : (inner.binary right p).run.Moves s :=
  inner.moves_binary right p s
    (TokenKind.isBoundary_of_precedence? (Option.filter_eq_some_iff.1 h).1)

/-- The current token, whatever it is, as an operator of precedence `p` with its right operand.
The operators that take the operand to their own side are folded into it first. -/
def binary (left : NodeId) (p : Precedence) : Attempt NodeId := do
  let operator ← advance
  let operand ← inner.primary
  let right ← Attempt.foldWhile (fun s => (operator? s).filter p.grabs)
    (fun next right => inner.binary right next) (moves_binary_of_filter inner) operand
  alloc (.binary left operator.kind right) operator

theorem moves_binary {left : NodeId} {p : Precedence} {s : State} (h : s.ahead ≠ []) :
    (binary inner left p).run.Moves s :=
  Attempt.moves_advance_bind h _

theorem moves_binary_of_operator (p : Precedence) (left : NodeId) (s : State)
    (h : operator? s = some p) : (binary inner left p).run.Moves s :=
  moves_binary inner (ahead_ne_nil_of_not_boundary (TokenKind.isBoundary_of_precedence? h))

/-- A whole expression. -/
def parse : Attempt NodeId := do
  let operand ← inner.primary
  Attempt.foldWhile operator? (fun p left => binary inner left p)
    (moves_binary_of_operator inner) operand

/-- An expression where one is required: an invalid node if there is none. -/
def parseOrInvalid : Parser NodeId :=
  recover (parse inner)

/-- A prefix operator and its operand. -/
def prefixed : Attempt NodeId := do
  let operator ← advance
  let operand ← inner.primary
  alloc (.prefixed operator.kind operand) operator

/-- `true` or `false`. -/
def boolean : Parser NodeId := do
  let token ← advance
  alloc (.boolean (token.kind = .kwTrue)) token

/-- A number literal, which must have a value. -/
def numeral {α : Type} (read? : String → Option α) (make : α → Construct) : Attempt NodeId := do
  let token ← advance
  match read? token.text with
  | some value => alloc (make value) token
  | none => throw ⟨.numberTooLarge token.text, token.line⟩

/-- An integer literal, which must be below 2^64. -/
def integer : Attempt NodeId :=
  numeral Literal.integer? .integer

/-- A float literal. -/
def float : Attempt NodeId :=
  numeral Literal.float? .float

/-- A string literal. -/
def string : Parser NodeId := do
  let token ← advance
  alloc (.string token.text) token

/-- An expression in parentheses, which leave no node. -/
def grouping : Attempt NodeId := do
  let _ ← advance
  let expr ← parse inner
  let _ ← eat .closeParen
  return expr

/-- `callee(argument, ...)`. -/
def call : Parser NodeId := do
  let callee ← advance
  let _ ← advance
  let arguments ← commaList (parseOrInvalid inner)
  let _ ← eat .closeParen
  alloc (.call callee.text arguments) callee

/-- `name[index]`. -/
def indexed : Parser NodeId := do
  let name ← advance
  let _ ← advance
  let index ← parseOrInvalid inner
  let _ ← eat .closeBracket
  alloc (.identifier name.text (some index)) name

/-- `object.member`, where a name must follow the point. -/
def member : Attempt NodeId := do
  let name ← advance
  let object ← alloc (.identifier name.text none) name
  let dot ← advance
  let token ← current
  if token.kind = .identifier then
    let field ← inner.identifier
    alloc (.member object field) dot
  else throw (unexpected .identifier token)

/-- A name alone. -/
def name : Parser NodeId := do
  let token ← advance
  alloc (.identifier token.text none) token

/-- A name and what follows it. -/
def identifier : Attempt NodeId := do
  let next ← peek
  match next.kind with
  | .openParen => call inner
  | .openBracket => indexed inner
  | .dot => member inner
  | _ => name

/-- An operand. -/
def primary : Attempt NodeId := do
  let token ← current
  match token.kind with
  | .bang | .dash | .tilde => prefixed inner
  | .kwTrue | .kwFalse => boolean
  | .integer => integer
  | .float => float
  | .string => string
  | .identifier => identifier inner
  | .openParen => grouping inner
  | found => throw ⟨.expectedExpression found token.text, token.line⟩

namespace Inner

/-- Where there is no room, everything is too deep. -/
def refusing : Inner where
  primary := tooDeep
  binary _ _ := tooDeep
  identifier := tooDeep
  moves_binary _ _ _ := moves_tooDeep

/-- The level around a level. -/
def around : Inner where
  primary := Expression.primary inner
  binary := Expression.binary inner
  identifier := Expression.identifier inner
  moves_binary _ _ _ h := Expression.moves_binary inner (ahead_ne_nil_of_not_boundary h)

/-- The parsers one level further in, when there is room for `room` more levels. -/
def ofRoom : Nat → Inner
  | 0 => refusing
  | room + 1 => around (ofRoom room)

theorem ofRoom_primary (room : Nat) :
    (ofRoom room).primary = nested room fun room => Expression.primary (ofRoom room) := by
  cases room <;> rfl

theorem ofRoom_identifier (room : Nat) :
    (ofRoom room).identifier = nested room fun room => Expression.identifier (ofRoom room) := by
  cases room <;> rfl

end Inner
end Expression
end Viper
