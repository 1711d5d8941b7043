/-
# Parsing on where closing tokens are left out

Each parser of the language does the same where tokens are left out (`Parser.Mends`), provided it does
not start at such a token by passing it blindly. Nothing that could be parsed starts there: an expression,
a statement, an item and a member of a struct are errors (`Parser.Blocked`). A name with what follows it
looks at the token after the name, which may be one that is left out; neither it nor what stands in its
place goes on with the name. The links of a conditional end at both.

Key definitions: `Expression.Inner.Mends`, `Statement.Inner.Mends`.
Key theorems: `Statement.mends_ofRoom`, `Item.mends_items`.
-/
import ViperFrontend.Proofs.Parser.Embedding
import ViperFrontend.Proofs.Parser.Omission

namespace Viper

open Viper.Parser

namespace DataType

variable {s : State}

theorem blocked_token (stop : s.current.kind.isStop = true) : token.Blocked s := by
  apply Attempt.blocked_look_bind
  split
  · rename_i name
    rw [name] at stop
    cases stop
  · rename_i void
    rw [void] at stop
    cases stop
  · exact Attempt.blocked_throw _

theorem mends_token : token.Mends s := by
  cases go : s.current.kind.isStop with
  | true => exact (blocked_token go).mends
  | false =>
    refine Attempt.mends_current_bind go ?_
    split
    · exact Attempt.mends_lift (mends_advance go)
    · exact Attempt.mends_lift (mends_advance go)
    · exact (Attempt.blocked_throw _).mends

theorem mends_parse : parse.Mends s :=
  mends_token.bind fun token _ => Attempt.mends_lift (mends_alloc _ token)

theorem mends_parseOrInvalid : parseOrInvalid.Mends s :=
  mends_recover mends_parse

end DataType

namespace Expression

/-- The parsers of a level do the same where tokens are left out. -/
structure Inner.Mends (inner : Inner) : Prop where
  primary : ∀ s, inner.primary.Mends s
  primary_blocked : ∀ s, s.current.kind.isStop = true → inner.primary.Blocked s
  binary : ∀ s left p, s.current.kind.isStop = false → (inner.binary left p).Mends s
  identifier : ∀ s, s.current.kind.isStop = false → inner.identifier.Mends s

variable {inner : Inner} {s : State}

/-- No operator is left out, and none stands in place of what is. -/
theorem operator?_of_lacks {told : List Diagnostic} {s' : State} (lacks : State.Lacks told s s') :
    operator? s' = operator? s := by
  unfold operator?
  rcases lacks.current_eq_or with same | ⟨stop, stop'⟩
  · rw [same]
  · rw [TokenKind.precedence?_of_isStop stop, TokenKind.precedence?_of_isStop stop']

theorem mends_binary (level : inner.Mends) (left : NodeId) (p : Precedence)
    (go : s.current.kind.isStop = false) : (binary inner left p).Mends s := by
  refine Attempt.mends_advance_bind go ((level.primary _).bind fun operand t => ?_)
  refine (Attempt.mends_foldWhile (fun s told s' lacks => ?_) ?_ operand).bind fun right t =>
    Attempt.mends_lift (mends_alloc _ _)
  · rw [operator?_of_lacks lacks]
  · intro next right t given
    exact level.binary t right next
      (TokenKind.isStop_of_precedence? (Option.filter_eq_some_iff.1 given).1)

theorem mends_parse (level : inner.Mends) : (parse inner).Mends s := by
  refine (level.primary s).bind fun operand t => ?_
  refine Attempt.mends_foldWhile (fun s told s' lacks => operator?_of_lacks lacks) ?_ operand
  exact fun p left t given => mends_binary level left p (TokenKind.isStop_of_precedence? given)

theorem blocked_parse (level : inner.Mends) (stop : s.current.kind.isStop = true) :
    (parse inner).Blocked s :=
  (level.primary_blocked s stop).bind _

theorem mends_parseOrInvalid (level : inner.Mends) : (parseOrInvalid inner).Mends s :=
  mends_recover (mends_parse level)

theorem blocked_parseOrInvalid (level : inner.Mends) (stop : s.current.kind.isStop = true) :
    (parseOrInvalid inner).Blocked s :=
  blocked_recover (blocked_parse level stop)

/-! ### Operands -/

theorem mends_prefixed (level : inner.Mends) (go : s.current.kind.isStop = false) :
    (prefixed inner).Mends s :=
  Attempt.mends_advance_bind go
    ((level.primary _).bind fun _ _ => Attempt.mends_lift (mends_alloc _ _))

/-- What is made of one token alone. -/
theorem mends_leaf {construct : Token → Construct} (go : s.current.kind.isStop = false) :
    (do let token ← advance; alloc (construct token) token : Parser NodeId).Mends s :=
  (mends_advance go).bind fun _ _ => mends_alloc _ _

theorem mends_numeral {α : Type} {read? : String → Option α} {make : α → Construct}
    (go : s.current.kind.isStop = false) : (numeral read? make).Mends s := by
  refine Attempt.mends_advance_bind go ?_
  split
  · exact Attempt.mends_lift (mends_alloc _ _)
  · exact (Attempt.blocked_throw _).mends

theorem mends_grouping (level : inner.Mends) (go : s.current.kind.isStop = false) :
    (grouping inner).Mends s := by
  refine Attempt.mends_advance_bind go ((mends_parse level).bind fun expr t => ?_)
  exact Attempt.mends_eat_bind fun t => Attempt.mends_pure _

theorem mends_call (level : inner.Mends) (go : s.current.kind.isStop = false)
    (paren : s.advance.current.kind = .openParen) : (call inner).Mends s := by
  refine (mends_advance go).bind_run fun _ => ?_
  refine (mends_advance (s := s.advance) (by rw [paren]; rfl)).bind fun _ t => ?_
  refine (mends_commaList (fun s closes => ?_) fun s => mends_parseOrInvalid level).bind
    fun arguments t => mends_eat_bind fun t => mends_alloc _ _
  exact blocked_parseOrInvalid level (TokenKind.isStop_of_isCloser closes)

theorem mends_indexed (level : inner.Mends) (go : s.current.kind.isStop = false)
    (bracket : s.advance.current.kind = .openBracket) : (indexed inner).Mends s := by
  refine (mends_advance go).bind_run fun _ => ?_
  refine (mends_advance (s := s.advance) (by rw [bracket]; rfl)).bind fun _ t => ?_
  exact (mends_parseOrInvalid level).bind fun index t => mends_eat_bind fun t => mends_alloc _ _

theorem mends_member (level : inner.Mends) (go : s.current.kind.isStop = false)
    (dot : s.advance.current.kind = .dot) : (member inner).Mends s := by
  refine Attempt.mends_advance_bind go ?_
  refine Attempt.mends_lift_bind (mends_alloc _ _) ?_
  refine Attempt.mends_advance_bind (s := (s.advance.alloc _ _).2) ?_ ?_
  · show s.advance.current.kind.isStop = false
    rw [dot]
    rfl
  generalize ((s.advance.alloc _ _).2).advance = t
  cases go : t.current.kind.isStop with
  | true =>
    refine Attempt.Blocked.mends (Attempt.blocked_look_bind ?_)
    rw [if_neg fun name => by rw [name] at go; cases go]
    exact Attempt.blocked_throw _
  | false =>
    refine Attempt.mends_current_bind go ?_
    split
    · exact (level.identifier t go).bind fun field t => Attempt.mends_lift (mends_alloc _ _)
    · exact (Attempt.blocked_throw _).mends

/-- A token that stops a name does not go on with it, and neither does what stands in its place. -/
theorem mends_identifier (level : inner.Mends) (go : s.current.kind.isStop = false) :
    (identifier inner).Mends s := by
  have second := State.current_advance s
  cases stop : s.peek.kind.isStop with
  | true =>
    intro told s' lacks node t run clean
    have stop' : s'.peek.kind.isStop = true := by
      rw [← State.current_advance]
      exact (lacks.together go).2.isStop (second ▸ stop)
    rw [run_identifier inner (TokenKind.endsOperand_of_isStop stop)] at run
    rw [run_identifier inner (TokenKind.endsOperand_of_isStop stop')]
    exact Attempt.mends_lift (mends_leaf go) told s' lacks node t run clean
  | false =>
    refine Attempt.mends_look_bind (fun told s' lacks => ?_) ?_
    · have onward := (lacks.together go).2.together (second ▸ stop)
      rw [State.current_advance, State.current_advance] at onward
      rw [onward.1]
    · split
      · exact Attempt.mends_lift (mends_call level go (second ▸ ‹_›))
      · exact Attempt.mends_lift (mends_indexed level go (second ▸ ‹_›))
      · exact mends_member level go (second ▸ ‹_›)
      · exact Attempt.mends_lift (mends_leaf go)

/-- No operand starts with a token that stops what stands before it. -/
theorem blocked_primary (stop : s.current.kind.isStop = true) : (primary inner).Blocked s := by
  have stopped : ∀ kind, s.current.kind = kind → kind.isStop = true := fun _ here => here ▸ stop
  apply Attempt.blocked_look_bind
  split
  all_goals first
    | exact Attempt.blocked_throw _
    | exact absurd (stopped _ ‹_›) (by decide)

theorem mends_primary (level : inner.Mends) : (primary inner).Mends s := by
  cases go : s.current.kind.isStop with
  | true => exact (blocked_primary go).mends
  | false =>
    refine Attempt.mends_current_bind go ?_
    split
    · exact mends_prefixed level go
    · exact mends_prefixed level go
    · exact mends_prefixed level go
    · exact Attempt.mends_lift (mends_leaf go)
    · exact Attempt.mends_lift (mends_leaf go)
    · exact mends_numeral go
    · exact mends_numeral go
    · exact Attempt.mends_lift (mends_leaf go)
    · exact mends_identifier level go
    · exact mends_grouping level go
    · exact (Attempt.blocked_throw _).mends

theorem mends_refusing : Inner.refusing.Mends where
  primary _ := blocked_tooDeep.mends
  primary_blocked _ _ := blocked_tooDeep
  binary _ _ _ _ := blocked_tooDeep.mends
  identifier _ _ := blocked_tooDeep.mends

theorem mends_around (level : inner.Mends) : (Inner.around inner).Mends where
  primary _ := mends_primary level
  primary_blocked _ stop := blocked_primary stop
  binary _ left p go := mends_binary level left p go
  identifier _ go := mends_identifier level go

end Expression

namespace Statement

/-- The parsers of a level do the same where tokens are left out. -/
structure Inner.Mends (inner : Inner) : Prop where
  exprs : inner.exprs.Mends
  statement : ∀ s, inner.statement.Mends s
  statement_blocked : ∀ s, s.current.kind.isStop = true → inner.statement.Blocked s
  conditional : ∀ s branch, s.current.kind.isStop = false → (inner.conditional branch).Mends s

variable {inner : Inner} {s : State}

theorem blocked_expression (level : inner.Mends) (stop : s.current.kind.isStop = true) :
    (expression inner).Blocked s :=
  blocked_look_bind ((Expression.blocked_parseOrInvalid level.exprs stop).bind _)

theorem mends_expression (level : inner.Mends) : (expression inner).Mends s := by
  cases go : s.current.kind.isStop with
  | true => exact (blocked_expression level go).mends
  | false =>
    refine mends_current_bind go ?_
    exact (Expression.mends_parseOrInvalid level.exprs).bind fun expr t => mends_alloc _ _

theorem mends_varDecl (level : inner.Mends) (go : s.current.kind.isStop = false) :
    (varDecl inner).Mends s := by
  refine (mends_advance go).bind fun start t => (mends_eat rfl).bind fun name t => ?_
  refine mends_eat_bind fun t => DataType.mends_parseOrInvalid.bind fun type t => ?_
  refine mends_eat_bind fun t => (Expression.mends_parseOrInvalid level.exprs).bind fun value t => ?_
  exact mends_eat_bind fun t => mends_alloc _ _

theorem mends_returnValue (level : inner.Mends) (value : s.current.kind ≠ .semicolon) :
    (returnValue inner).Mends s := by
  cases go : s.current.kind.isStop with
  | true =>
    refine Blocked.mends (blocked_look_bind ?_)
    rw [if_neg value]
    exact (Expression.blocked_parseOrInvalid level.exprs go).bind _
  | false =>
    refine mends_current_bind go ?_
    rw [if_neg value]
    exact (Expression.mends_parseOrInvalid level.exprs).bind fun _ _ => mends_pure _

/-- A `return` without a value. -/
theorem run_returnStmt (bare : s.advance.current.kind = .semicolon) :
    (returnStmt inner).run s =
      (eat .semicolon >>= fun _ => alloc (.returnStmt none) s.current).run s.advance := by
  simp [returnStmt, returnValue, bare]

/-- **A `;` behind a `return`** stands in place of a value, and is not left out. -/
theorem mends_returnStmt (level : inner.Mends) (returns : s.current.kind = .kwReturn) :
    (returnStmt inner).Mends s := by
  have go : s.current.kind.isStop = false := by
    rw [returns]
    rfl
  by_cases bare : s.advance.current.kind = .semicolon
  · intro told s' lacks clean
    rcases lacks.view with ⟨same, onward, value⟩ | ⟨ended, -⟩ | ⟨closes, -⟩
    · rw [run_returnStmt bare] at clean ⊢
      rw [run_returnStmt (value returns bare), same]
      have closing : (eat .semicolon >>= fun _ => alloc (.returnStmt none) s.current).Mends s.advance :=
        mends_eat_bind fun t => mends_alloc _ _
      exact closing told _ onward clean
    · rw [ended] at returns
      cases returns
    · rw [returns] at closes
      cases closes
  · refine (mends_advance go).bind_run fun _ => (mends_returnValue level bare).bind fun value t => ?_
    exact mends_eat_bind fun t => mends_alloc _ _

theorem mends_blockRound (level : inner.Mends) (token : Token) (body : Array NodeId) :
    (blockRound inner token body).Mends s :=
  (mends_recover (level.statement s)).bind fun _ _ => mends_pure _

/-- The statements before a boundary end in both parses, for neither a `}` nor the end of the file starts
one, and no `;` does. -/
theorem beforeBoundary?_of_lacks {told : List Diagnostic} {s' : State}
    (lacks : State.Lacks told s s') :
    beforeBoundary? s' = beforeBoundary? s ∨
      beforeBoundary? s = some s.current ∧ s.current.kind.isStop = true := by
  unfold beforeBoundary?
  rcases lacks.view with ⟨same, -⟩ | ⟨ended, ended', -⟩ | ⟨closes, boundary', -⟩
  · exact .inl (by rw [same])
  · exact .inl (by simp [ended, ended', TokenKind.isBoundary])
  · by_cases boundary : s.current.kind.isBoundary = true
    · exact .inl (by rw [if_pos boundary, if_pos boundary'])
    · exact .inr ⟨if_neg boundary, TokenKind.isStop_of_isCloser closes⟩

theorem mends_statements (level : inner.Mends) : (statements inner).Mends s := by
  refine mends_foldWhile (fun s told s' lacks => ?_) ?_ #[]
  · refine (beforeBoundary?_of_lacks lacks).imp_right fun ⟨given, stop⟩ => ⟨_, given, fun body => ?_⟩
    exact (blocked_recover (level.statement_blocked s stop)).bind _
  · exact fun token body t _ => mends_blockRound level token body

theorem blocked_block (stop : s.current.kind.isStop = true) : (block inner).Blocked s := by
  apply Attempt.blocked_look_bind
  rw [if_neg fun brace => by rw [brace] at stop; cases stop]
  exact Attempt.blocked_throw _

theorem mends_block (level : inner.Mends) : (block inner).Mends s := by
  cases go : s.current.kind.isStop with
  | true => exact (blocked_block go).mends
  | false =>
    refine Attempt.mends_current_bind go ?_
    split
    · refine Attempt.mends_advance_bind go ?_
      refine (Attempt.mends_lift (mends_statements level)).bind fun body t => ?_
      exact Attempt.mends_eat_bind fun t => Attempt.mends_lift (mends_alloc _ _)
    · exact (Attempt.blocked_throw _).mends

theorem mends_blockOrInvalid (level : inner.Mends) : (blockOrInvalid inner).Mends s :=
  mends_recover (mends_block level)

/-! ### Conditionals and loops -/

theorem mends_condition (level : inner.Mends) (branch : Branch) : (condition inner branch).Mends s := by
  cases branch with
  | ifBranch | elifBranch =>
    exact (Expression.mends_parseOrInvalid level.exprs).bind fun expr _ => mends_pure _
  | elseBranch => exact mends_pure _

/-- A chain of links ends at a token that stops what stands before it. -/
theorem run_nextLink (branch : Branch) (stop : s.current.kind.isStop = true) :
    (nextLink inner branch).run.run s = (.ok none, s) := by
  have stopped : ∀ kind, s.current.kind = kind → kind.isStop = true := fun _ here => here ▸ stop
  unfold nextLink
  rw [Attempt.run_bind, Attempt.run_lift, run_current]
  dsimp only
  split
  · rfl
  · exact absurd (stopped _ ‹_›) (by decide)
  · exact absurd (stopped _ ‹_›) (by decide)
  · rfl

theorem mends_nextLink (level : inner.Mends) (branch : Branch) : (nextLink inner branch).Mends s := by
  cases go : s.current.kind.isStop with
  | true =>
    rintro told s' lacks a t run -
    rw [run_nextLink branch go] at run
    cases run
    exact ⟨s', run_nextLink branch (lacks.isStop go), lacks⟩
  | false =>
    refine Attempt.mends_current_bind go ?_
    split
    · exact Attempt.mends_pure _
    · exact (level.conditional s .elifBranch go).bind fun link _ => Attempt.mends_pure _
    · exact (level.conditional s .elseBranch go).bind fun link _ => Attempt.mends_pure _
    · exact Attempt.mends_pure _

theorem mends_conditional (level : inner.Mends) (branch : Branch) (go : s.current.kind.isStop = false) :
    (conditional inner branch).Mends s := by
  refine Attempt.mends_advance_bind go ?_
  refine (Attempt.mends_lift (mends_condition level branch)).bind fun value t => ?_
  refine (Attempt.mends_lift (mends_blockOrInvalid level)).bind fun body t => ?_
  exact (mends_nextLink level branch).bind fun next t => Attempt.mends_lift (mends_alloc _ _)

/-- A clause that follows no `if` is an error. -/
theorem blocked_dangling : (dangling inner).Blocked s := by
  apply Attempt.blocked_look_bind
  exact Attempt.blocked_bind_throw _ _

theorem mends_whileLoop (level : inner.Mends) (go : s.current.kind.isStop = false) :
    (whileLoop inner).Mends s := by
  refine (mends_advance go).bind fun start t => ?_
  refine (Expression.mends_parseOrInvalid level.exprs).bind fun condition t => ?_
  exact (mends_blockOrInvalid level).bind fun body t => mends_alloc _ _

theorem mends_doWhileLoop (level : inner.Mends) (go : s.current.kind.isStop = false) :
    (doWhileLoop inner).Mends s := by
  refine (mends_advance go).bind fun start t => (mends_blockOrInvalid level).bind fun body t => ?_
  refine mends_eat_bind fun t => (Expression.mends_parseOrInvalid level.exprs).bind fun condition t => ?_
  exact mends_eat_bind fun t => mends_alloc _ _

theorem mends_terminated (level : inner.Mends) : (terminated inner).Mends s :=
  (mends_expression level).bind fun _ _ => mends_eat_bind fun _ => mends_pure _

/-- A token at which everything stops starts no statement. -/
theorem form?_of_isStop {kind : TokenKind} (stop : kind.isStop = true) : kind.form? = none := by
  apply TokenKind.form?_eq_none
  revert stop
  cases kind <;> decide

theorem blocked_straight (level : inner.Mends) (stop : s.current.kind.isStop = true) :
    (straight inner).Blocked s := by
  apply Attempt.blocked_look_bind
  rw [form?_of_isStop stop]
  exact Attempt.blocked_lift ((blocked_expression level stop).bind _)

theorem mends_straight (level : inner.Mends) : (straight inner).Mends s := by
  cases go : s.current.kind.isStop with
  | true => exact (blocked_straight level go).mends
  | false =>
    refine Attempt.mends_current_bind go ?_
    split
    · exact Attempt.mends_lift (mends_varDecl level go)
    · exact Attempt.mends_lift (mends_returnStmt level (TokenKind.eq_of_form? ‹_› rfl))
    · exact mends_conditional level .ifBranch go
    · exact blocked_dangling.mends
    · exact Attempt.mends_lift (mends_whileLoop level go)
    · exact Attempt.mends_lift (mends_doWhileLoop level go)
    · exact mends_block level
    · exact Attempt.mends_lift (mends_terminated level)

theorem mends_forOpening (go : s.current.kind.isStop = false) : forOpening.Mends s :=
  (mends_advance go).bind fun _ _ => mends_eat_bind fun _ => mends_pure _

theorem mends_forClosing (level : inner.Mends) (start : Token) (init : NodeId) :
    (forClosing inner start init).Mends s := by
  refine (Expression.mends_parseOrInvalid level.exprs).bind fun condition t => ?_
  refine mends_eat_bind fun t => (mends_expression level).bind fun action t => ?_
  exact mends_eat_bind fun t => (mends_blockOrInvalid level).bind fun body t => mends_alloc _ _

theorem blocked_parse (level : inner.Mends) (stop : s.current.kind.isStop = true) :
    (parse inner).Blocked s := by
  apply Attempt.blocked_look_bind
  rw [if_neg (by rw [form?_of_isStop stop]; nofun)]
  exact blocked_straight level stop

theorem mends_parse_of (level : inner.Mends)
    (loops : s.current.kind.form? = some .forLoop → (forLoop inner).Mends s) : (parse inner).Mends s := by
  cases go : s.current.kind.isStop with
  | true => exact (blocked_parse level go).mends
  | false =>
    refine Attempt.mends_current_bind go ?_
    split
    · exact Attempt.mends_lift (loops ‹_›)
    · exact mends_straight level

/-- A `for` in the initializer of a `for` stands behind a token more. -/
theorem mends_forLoop (level : inner.Mends) (s : State) (go : s.current.kind.isStop = false) :
    (forLoop inner).Mends s := by
  rw [forLoop_eq]
  refine (mends_forOpening go).bind_run fun _ => ?_
  refine (mends_recover (mends_parse_of level ?_)).bind fun init t => mends_forClosing level _ init
  exact fun isFor => mends_forLoop level (forOpening.run s).2 (by rw [TokenKind.eq_of_form? isFor rfl]; rfl)
termination_by s.ahead.length
decreasing_by exact moves_forOpening isFor

theorem mends_parse (level : inner.Mends) : (parse inner).Mends s :=
  mends_parse_of level fun isFor => mends_forLoop level s (by rw [TokenKind.eq_of_form? isFor rfl]; rfl)

theorem mends_refusing : Inner.refusing.Mends where
  exprs := Expression.mends_refusing
  statement _ := blocked_tooDeep.mends
  statement_blocked _ _ := blocked_tooDeep
  conditional _ _ _ := blocked_tooDeep.mends

theorem mends_around (level : inner.Mends) : (Inner.around inner).Mends where
  exprs := Expression.mends_around level.exprs
  statement _ := mends_parse level
  statement_blocked _ stop := blocked_parse level stop
  conditional _ branch go := mends_conditional level branch go

/-- **Every level does the same where tokens are left out.** -/
theorem mends_ofRoom : ∀ room : Nat, (Inner.ofRoom room).Mends
  | 0 => mends_refusing
  | room + 1 => mends_around (mends_ofRoom room)

end Statement

namespace Item

open Statement (Inner mends_blockOrInvalid beforeBoundary?_of_lacks)

variable {inner : Inner} {s : State}

theorem mends_parameter : parameter.Mends s := by
  refine (mends_eat rfl).bind fun name t => mends_eat_bind fun t => ?_
  refine mends_run_bind DataType.mends_token (fun type t => mends_alloc _ _) fun e t => ?_
  exact blocked_look_bind ((blocked_record e).bind _)

theorem blocked_parameter (stop : s.current.kind.isStop = true) : parameter.Blocked s :=
  (blocked_eat fun name => by rw [name] at stop; cases stop).bind _

theorem mends_procedure (level : inner.Mends) (go : s.current.kind.isStop = false) :
    (procedure inner).Mends s := by
  refine (mends_advance go).bind fun start t => (mends_eat rfl).bind fun name t => ?_
  refine mends_eat_bind fun t => ?_
  refine (mends_commaList (fun s closes => ?_) fun s => mends_parameter).bind fun parameters t => ?_
  · exact blocked_parameter (TokenKind.isStop_of_isCloser closes)
  · refine mends_eat_bind fun t => mends_eat_bind fun t => ?_
    refine DataType.mends_parseOrInvalid.bind fun type t => ?_
    exact (mends_blockOrInvalid level).bind fun body t => mends_alloc _ _

theorem mends_field (go : s.current.kind.isStop = false) : field.Mends s := by
  refine (mends_advance go).bind fun name t => mends_eat_bind fun t => ?_
  exact DataType.mends_parseOrInvalid.bind fun type t => mends_eat_bind fun t => mends_alloc _ _

theorem mends_memberRound (level : inner.Mends) (members : Members) :
    (memberRound inner s.current members).Mends s := by
  have go : ∀ kind, s.current.kind = kind → kind.isStop = false → s.current.kind.isStop = false :=
    fun _ here other => here ▸ other
  unfold memberRound
  split
  · exact (mends_field (go _ ‹_› rfl)).bind fun id t => mends_pure _
  · exact (mends_procedure level (go _ ‹_› rfl)).bind fun id t => mends_pure _
  · exact (mends_procedure level (go _ ‹_› rfl)).bind fun id t => mends_pure _
  · exact ((blocked_record _).bind _).mends

/-- No member of a struct starts with a token that stops what stands before it. -/
theorem blocked_memberRound (stop : s.current.kind.isStop = true) (members : Members) :
    (memberRound inner s.current members).Blocked s := by
  have stopped : ∀ kind, s.current.kind = kind → kind.isStop = true := fun _ here => here ▸ stop
  unfold memberRound
  split
  all_goals first
    | exact absurd (stopped _ ‹_›) (by decide)
    | exact (blocked_record _).bind _

theorem mends_members (level : inner.Mends) : (members inner).Mends s := by
  refine mends_foldWhile (fun s told s' lacks => ?_) (fun token members t given => ?_) _
  · refine (beforeBoundary?_of_lacks lacks).imp_right fun ⟨given, stop⟩ => ⟨_, given, ?_⟩
    exact blocked_memberRound stop
  · obtain rfl := Statement.current_of_beforeBoundary? given
    exact mends_memberRound level members

theorem mends_struct (level : inner.Mends) (go : s.current.kind.isStop = false) :
    (struct inner).Mends s := by
  refine (mends_advance go).bind fun start t => (mends_eat rfl).bind fun name t => ?_
  refine mends_eat_bind fun t => (mends_members level).bind fun members t => ?_
  exact mends_eat_bind fun t => mends_alloc _ _

/-- No item starts with a token that stops what stands before it. -/
theorem go_of_ofToken? {token : Token} {item : Parser NodeId}
    (starts : ofToken? inner token = some item) : token.kind.isStop = false := by
  unfold ofToken? at starts
  split at starts
  case h_5 => cases starts
  all_goals simp_all [TokenKind.isStop]

theorem mends_ofToken? (level : inner.Mends) {item : Parser NodeId}
    (starts : ofToken? inner s.current = some item) : item.Mends s := by
  have go := go_of_ofToken? starts
  unfold ofToken? at starts
  split at starts <;> cases starts
  · exact mends_procedure level go
  · exact mends_procedure level go
  · exact mends_struct level go
  · exact Statement.mends_varDecl level go

/-- A token that starts no item is an error. -/
theorem blocked_items {token : Token} (given : beforeEnd? s = some token)
    (stray : ofToken? inner token = none) : (items inner false).Blocked s := by
  unfold Blocked
  rw [items_of_token false given]
  refine Blocked.bind ?_ _
  simp only [programRound, stray]
  exact (blocked_record _).bind _

/-- **The items of a file** are the same where tokens are left out. -/
theorem mends_items (level : inner.Mends) (s : State) : (items inner false).Mends s := by
  cases given : beforeEnd? s with
  | none =>
    intro told s' lacks clean
    have ended : s.current.kind = .eof := by simpa [beforeEnd?] using given
    have ended' : beforeEnd? s' = none := by
      rcases lacks.view with ⟨same, -⟩ | ⟨-, isEnd, -⟩ | ⟨closes, -⟩
      · simp [beforeEnd?, same, ended]
      · simp [beforeEnd?, isEnd]
      · rw [ended] at closes
        cases closes
    rw [items_of_end false given, items_of_end false ended']
    exact ⟨rfl, lacks⟩
  | some token =>
    obtain ⟨rfl, other⟩ := current_of_beforeEnd? given
    cases starts : ofToken? inner s.current with
    | none => exact (blocked_items given starts).mends
    | some item =>
      have round : (programRound inner s.current false).Mends s := by
        simp only [programRound, starts]
        exact (mends_ofToken? level starts).bind fun id t =>
          (mends_pushRoot id).bind fun _ _ => mends_pure _
      have again : ((programRound inner s.current false).run s).1 = false := by
        simp [programRound, starts]
      have both : (programRound inner s.current false >>= items inner).Mends s := by
        refine round.bind_run fun _ => ?_
        rw [again]
        exact mends_items level ((programRound inner s.current false).run s).2
      intro told s' lacks clean
      have given' : beforeEnd? s' = some s.current := by
        rw [beforeEnd?, (lacks.together (go_of_ofToken? starts)).1, if_neg other]
      rw [items_of_token false given] at clean ⊢
      rw [items_of_token false given']
      exact both told s' lacks clean
termination_by s.ahead.length
decreasing_by exact moves_programRound inner s.current false s given

end Item

end Viper
