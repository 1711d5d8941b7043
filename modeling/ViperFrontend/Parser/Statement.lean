/-
# Statements

A keyword or a `{` starts a statement of its own form, which is looked up in a table
(`TokenKind.form?`); anything else is an expression and a `;`. The statements of a block and the
links of a conditional chain are one level further in. The initializer of a `for` is a statement
on the same level and brings its own `;`, so `for` may stand in the initializer of `for` to any
depth: each passes a token first.

Key definitions: `TokenKind.form?`, `Statement.Inner`, `Statement.parse`, `Statement.block`,
`Statement.conditional`, `Statement.forLoop`, `Statement.Inner.ofRoom`.
Key theorems: `Statement.forLoop_eq`, `Statement.moves_parse`.
-/
import ViperFrontend.Parser.DataType
import ViperFrontend.Parser.Expression

namespace Viper

/-- The forms of statements that start with a token of their own. -/
inductive Statement.Form where
  | varDecl
  | returnStmt
  | conditional
  /-- an `elif` or `else` that follows no `if` -/
  | clause
  | whileLoop
  | doWhileLoop
  | forLoop
  | block
deriving DecidableEq, Repr

/-- The table `TokenKind.form?` from its other side: the kinds of token that start a form. -/
def Statement.Form.kinds : Statement.Form → List TokenKind
  | .varDecl => [.kwLet]
  | .returnStmt => [.kwReturn]
  | .conditional => [.kwIf]
  | .clause => [.kwElif, .kwElse]
  | .whileLoop => [.kwWhile]
  | .doWhileLoop => [.kwDo]
  | .forLoop => [.kwFor]
  | .block => [.openCurly]

namespace TokenKind

/-- The form of the statement that a token of some kind starts. -/
def form? : TokenKind → Option Statement.Form
  | .kwLet => some .varDecl
  | .kwReturn => some .returnStmt
  | .kwIf => some .conditional
  | .kwElif | .kwElse => some .clause
  | .kwWhile => some .whileLoop
  | .kwDo => some .doWhileLoop
  | .kwFor => some .forLoop
  | .openCurly => some .block
  | _ => none

/-- The kinds of token that start a statement of their own form. -/
def startsStatement (kind : TokenKind) : Bool :=
  kind.form?.isSome

theorem form?_eq_none {kind : TokenKind} (h : kind.startsStatement = false) : kind.form? = none :=
  Option.isNone_iff_eq_none.1 (Option.isSome_eq_false_iff.1 h)

theorem isBoundary_of_form? {kind : TokenKind} {form : Statement.Form} (h : kind.form? = some form) :
    kind.isBoundary = false := by
  revert h
  cases kind <;> simp [form?, isBoundary]

/-- A form has one token to start it, but for clauses, which have two. -/
theorem mem_kinds_of_form? {kind : TokenKind} {form : Statement.Form} (h : kind.form? = some form) :
    kind ∈ form.kinds := by
  revert h
  cases kind <;> rintro ⟨⟩ <;> decide

theorem eq_of_form? {kind opening : TokenKind} {form : Statement.Form} (h : kind.form? = some form)
    (one : form.kinds = [opening]) : kind = opening :=
  List.mem_singleton.1 (one ▸ mem_kinds_of_form? h)

end TokenKind

namespace Statement

open Viper.Parser

/-- The parsers for what a statement holds one level further in. -/
structure Inner where
  /-- the parsers for what an expression holds -/
  exprs : Expression.Inner
  /-- a statement -/
  statement : Attempt NodeId
  /-- a link of a conditional chain -/
  conditional : Branch → Attempt NodeId
  moves_statement : ∀ s : State,
    s.current.kind.isBoundary = false → statement.run.Moves s

variable (inner : Inner)

/-- An expression as a statement, without the `;`. -/
def expression : Parser NodeId := do
  let token ← current
  let expr ← Expression.parseOrInvalid inner.exprs
  alloc (.exprStmt expr) token

/-- `let name: type = value;`. -/
def varDecl : Parser NodeId := do
  let start ← advance
  let name ← eat .identifier
  let _ ← eat .colon
  let type ← DataType.parseOrInvalid
  let _ ← eat .assignment
  let value ← Expression.parseOrInvalid inner.exprs
  let _ ← eat .semicolon
  alloc (.varDecl name.text type value) start

/-- The value of a `return`, unless the `;` follows at once. -/
def returnValue : Parser (Option NodeId) := do
  let token ← current
  if token.kind = .semicolon then return none
  else
    let value ← Expression.parseOrInvalid inner.exprs
    return some value

/-- `return;` or `return value;`. -/
def returnStmt : Parser NodeId := do
  let start ← advance
  let value ← returnValue inner
  let _ ← eat .semicolon
  alloc (.returnStmt value) start

/-! ## Blocks -/

/-- What is left to parse before a boundary. -/
def beforeBoundary? (s : State) : Option Token :=
  if s.current.kind.isBoundary then none else some s.current

theorem not_boundary {s : State} {token : Token} (h : beforeBoundary? s = some token) :
    s.current.kind.isBoundary = false := by
  unfold beforeBoundary? at h
  split at h
  · cases h
  · exact Bool.eq_false_iff.2 ‹_›

/-- One more statement of a block. -/
def blockRound (_ : Token) (body : Array NodeId) : Parser (Array NodeId) := do
  let id ← recover inner.statement
  return body.push id

theorem moves_recover {attempt : Attempt NodeId} {s : State} (h : attempt.run.Moves s) :
    (recover attempt).Moves s :=
  h.bind _

theorem moves_blockRound (token : Token) (body : Array NodeId) (s : State)
    (h : beforeBoundary? s = some token) : (blockRound inner token body).Moves s :=
  (moves_recover (inner.moves_statement s (not_boundary h))).bind _

/-- The statements before a boundary. -/
def statements : Parser (Array NodeId) :=
  foldWhile beforeBoundary? (blockRound inner) (moves_blockRound inner) #[]

/-- `{ statement ... }`. Nothing is passed if there is no `{`. -/
def block : Attempt NodeId := do
  let start ← current
  if start.kind = .openCurly then
    let _ ← advance
    let body ← statements inner
    let _ ← eat .closeCurly
    alloc (.block body.toList) start
  else throw (unexpected .openCurly start)

/-- A block where one is required: an invalid node if there is none. -/
def blockOrInvalid : Parser NodeId :=
  recover (block inner)

/-! ## Conditionals and loops -/

/-- The condition of a link; an `else` has none. -/
def condition : Branch → Parser (Option NodeId)
  | .elseBranch => return none
  | .ifBranch | .elifBranch => do
    let expr ← Expression.parseOrInvalid inner.exprs
    return some expr

/-- The link that the current token starts; none follows an `else`. -/
def nextLink (branch : Branch) : Attempt (Option NodeId) := do
  let token ← current
  match branch, token.kind with
  | .elseBranch, _ => return none
  | _, .kwElif =>
    let link ← inner.conditional .elifBranch
    return some link
  | _, .kwElse =>
    let link ← inner.conditional .elseBranch
    return some link
  | _, _ => return none

/-- A link of a conditional chain, from its keyword on, with the links after it. -/
def conditional (branch : Branch) : Attempt NodeId := do
  let start ← advance
  let condition ← condition inner branch
  let body ← blockOrInvalid inner
  let next ← nextLink inner branch
  alloc (.conditional branch condition body next) start

/-- An `elif` or `else` that follows no `if`: its clause is parsed and thrown away. -/
def dangling : Attempt NodeId := do
  let clause ← current
  let _ ← conditional inner (if clause.kind = .kwElif then .elifBranch else .elseBranch)
  throw ⟨.danglingElseClause clause.kind, clause.line⟩

/-- `while condition body`. -/
def whileLoop : Parser NodeId := do
  let start ← advance
  let condition ← Expression.parseOrInvalid inner.exprs
  let body ← blockOrInvalid inner
  alloc (.whileLoop condition body) start

/-- `do body while condition;`. -/
def doWhileLoop : Parser NodeId := do
  let start ← advance
  let body ← blockOrInvalid inner
  let _ ← eat .kwWhile
  let condition ← Expression.parseOrInvalid inner.exprs
  let _ ← eat .semicolon
  alloc (.doWhileLoop body condition) start

/-- An expression and a `;`. -/
def terminated : Parser NodeId := do
  let stmt ← expression inner
  let _ ← eat .semicolon
  return stmt

/-- A statement that is no `for`. -/
def straight : Attempt NodeId := do
  let token ← current
  match token.kind.form? with
  | some .varDecl => varDecl inner
  | some .returnStmt => returnStmt inner
  | some .conditional => conditional inner .ifBranch
  | some .clause => dangling inner
  | some .whileLoop => whileLoop inner
  | some .doWhileLoop => doWhileLoop inner
  | some .block => block inner
  | _ => terminated inner

/-- `for (`. -/
def forOpening : Parser Token := do
  let start ← advance
  let _ ← eat .openParen
  return start

/-- What follows the initializer of a `for`. -/
def forClosing (start : Token) (init : NodeId) : Parser NodeId := do
  let condition ← Expression.parseOrInvalid inner.exprs
  let _ ← eat .semicolon
  let action ← expression inner
  let _ ← eat .closeParen
  let body ← blockOrInvalid inner
  alloc (.forLoop init condition action body) start

/-- A `for` can only be reached by passing a token. -/
theorem moves_forOpening {s : State}
    (h : (forOpening.run s).2.current.kind.form? = some .forLoop) : forOpening.Moves s := by
  apply (moves_advance _).bind
  intro none
  have here : (forOpening.run s).2.ahead = [] :=
    List.suffix_nil.1 (none ▸ (forOpening.reaches s).ahead_suffix)
  exact ahead_ne_nil_of_not_boundary (TokenKind.isBoundary_of_form? h) here

/-- Runs a `for`, by recursion when its initializer is one. -/
def runFor (s : State) : { result : NodeId × State // s.Reaches result.2 } :=
  let opened := forOpening.run s
  have reached := forOpening.reaches s
  if _isFor : opened.2.current.kind.form? = some .forLoop then
    let init := runFor opened.2
    let closing := forClosing inner opened.1 init.1.1
    ⟨closing.run init.1.2, reached.trans (init.2.trans (closing.reaches init.1.2))⟩
  else
    let rest := recover (straight inner) >>= forClosing inner opened.1
    ⟨rest.run opened.2, reached.trans (rest.reaches opened.2)⟩
termination_by s.ahead.length
decreasing_by exact moves_forOpening _isFor

/-- `for (init; condition; action) body`. -/
def forLoop : Parser NodeId :=
  ⟨fun s => (runFor inner s).1, fun s => (runFor inner s).2⟩

/-- A statement. -/
def parse : Attempt NodeId := do
  let token ← current
  if token.kind.form? = some .forLoop then forLoop inner else straight inner

/-- The initializer of a `for` is any statement. -/
theorem forLoop_eq :
    forLoop inner =
      forOpening >>= fun start => recover (parse inner) >>= forClosing inner start := by
  apply Parser.ext
  intro s
  show (runFor inner s).1 = _
  rw [runFor]
  simp only [Parser.run_bind]
  split
  · rename_i isFor
    have run : (recover (parse inner)).run (forOpening.run s).2 =
        (forLoop inner).run (forOpening.run s).2 := by
      simp [recover, parse, isFor]
    rw [run]
    rfl
  · rename_i isFor
    have run : (recover (parse inner)).run (forOpening.run s).2 =
        (recover (straight inner)).run (forOpening.run s).2 := by
      simp [recover, parse, isFor]
    rw [run]

/-! ## Every statement passes a token -/

theorem moves_conditional {branch : Branch} {s : State} (h : s.ahead ≠ []) :
    (conditional inner branch).run.Moves s :=
  Attempt.moves_advance_bind h _

theorem moves_dangling {s : State} (h : s.ahead ≠ []) : (dangling inner).run.Moves s :=
  Attempt.moves_look_bind (Attempt.moves_bind (moves_conditional inner h) _)

theorem moves_forLoop {s : State} (h : s.ahead ≠ []) : (forLoop inner).Moves s := by
  rw [forLoop_eq]
  exact ((moves_advance h).bind _).bind _

theorem moves_block {s : State} (h : s.current.kind = .openCurly) : (block inner).run.Moves s := by
  apply Attempt.moves_look_bind
  rw [if_pos h]
  exact Attempt.moves_advance_bind (State.ahead_ne_nil (by rw [h]; decide)) _

/-- If the expression is not even started, the `;` that is missed passes a token. -/
theorem moves_terminated {s : State} (h : s.current.kind.isBoundary = false) :
    (terminated inner).Moves s := by
  have reached := (expression inner).reaches s
  by_cases same : ((expression inner).run s).2.ahead = s.ahead
  · apply moves_bind
    apply Moves.bind
    apply moves_eat
    rw [reached.current_eq same]
    exact h
  · apply Moves.bind
    exact Nat.lt_of_le_of_ne reached.length_ahead_le fun length =>
      same (reached.ahead_suffix.eq_of_length length)

theorem moves_straight {s : State} (h : s.current.kind.isBoundary = false) :
    (straight inner).run.Moves s := by
  have some := ahead_ne_nil_of_not_boundary h
  apply Attempt.moves_look_bind
  split
  · exact Attempt.moves_lift ((moves_advance some).bind _)
  · exact Attempt.moves_lift ((moves_advance some).bind _)
  · exact moves_conditional inner some
  · exact moves_dangling inner some
  · exact Attempt.moves_lift ((moves_advance some).bind _)
  · exact Attempt.moves_lift ((moves_advance some).bind _)
  · exact moves_block inner (TokenKind.eq_of_form? ‹_› rfl)
  · exact Attempt.moves_lift (moves_terminated inner h)

/-- **A statement passes a token** unless it stands at a boundary. -/
theorem moves_parse {s : State} (h : s.current.kind.isBoundary = false) :
    (parse inner).run.Moves s := by
  apply Attempt.moves_look_bind
  split
  · exact Attempt.moves_lift (moves_forLoop inner (ahead_ne_nil_of_not_boundary h))
  · exact moves_straight inner h

namespace Inner

/-- Where there is no room, everything is too deep. -/
def refusing : Inner where
  exprs := Expression.Inner.refusing
  statement := tooDeep
  conditional _ := tooDeep
  moves_statement _ := moves_tooDeep

/-- The level around a level. -/
def around : Inner where
  exprs := Expression.Inner.around inner.exprs
  statement := parse inner
  conditional := Statement.conditional inner
  moves_statement _ := moves_parse inner

/-- The parsers one level further in, when there is room for `room` more levels. -/
def ofRoom : Nat → Inner
  | 0 => refusing
  | room + 1 => around (ofRoom room)

theorem ofRoom_exprs : ∀ room : Nat, (ofRoom room).exprs = Expression.Inner.ofRoom room
  | 0 => rfl
  | room + 1 => congrArg Expression.Inner.around (ofRoom_exprs room)

theorem ofRoom_statement (room : Nat) :
    (ofRoom room).statement = nested room fun room => parse (ofRoom room) := by
  cases room <;> rfl

theorem ofRoom_conditional (room : Nat) (branch : Branch) :
    (ofRoom room).conditional branch =
      nested room fun room => Statement.conditional (ofRoom room) branch := by
  cases room <;> rfl

end Inner

end Statement
end Viper
