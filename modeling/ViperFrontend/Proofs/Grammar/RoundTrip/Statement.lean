/-
# A printed statement is parsed back

A statement ends with a bracket or a `;` of its own, but for a conditional, which the next token may go on
with: it must not be a link of a chain. Of the statements of a block each is followed by the next one or by
the closing bracket, so none of them is. The words of a statement are then accepted where one stands, if
there are levels enough for it (`Statement.acceptsStmt`), by recursion over statements, blocks and links.

Key definitions: `Statement.AcceptsStmt`, `Statement.AcceptsBlock`, `Statement.AcceptsLink`.
Key theorems: `Statement.acceptsBlock_mk`, `Statement.acceptsStmt`.
-/
import ViperFrontend.Proofs.Grammar.RoundTrip.Expression

namespace Viper

open Viper.Parser Program
open Word (symbol nextKind)

/-- The kinds of token that do not go on with a chain of conditionals. -/
def TokenKind.endsStatement : TokenKind → Bool
  | .kwElif | .kwElse => false
  | _ => true

theorem TokenKind.endsStatement_of_opensStatement {kind : TokenKind}
    (h : kind.opensStatement = true) : kind.endsStatement = true := by
  revert h
  cases kind <;> decide

/-- What starts an expression starts no statement of another form. -/
theorem TokenKind.startsStatement_of_startsExpression {kind : TokenKind}
    (h : kind.startsExpression = true) : kind.startsStatement = false := by
  revert h
  cases kind <;> decide

theorem TokenKind.not_isBoundary_of_opensStatement {kind : TokenKind}
    (h : kind.opensStatement = true) : kind.isBoundary = false := by
  revert h
  cases kind <;> decide

variable {s last : State} {rest : List Word}

namespace Statement

variable {room : Nat} {e : Expr Unit}

theorem accepts_parseOrInvalid (valid : e.isValid = true) (here : s.Ahead (e.words ++ rest))
    (follow : (nextKind rest).endsExpression = true) :
    (Expression.parseOrInvalid (Inner.ofRoom room).exprs).Accepts last s (e.levels ≤ room) rest
      (Expression.Holds last e) := by
  rw [Inner.ofRoom_exprs]
  exact accepts_recover ((Expression.accepted e valid).whole room s rest here follow)

/-- The words of a statement are accepted. -/
def AcceptsStmt (last : State) (stmt : Stmt Unit) : Prop :=
  ∀ room s rest, s.Ahead (stmt.words ++ rest) → (nextKind rest).endsStatement = true →
    (parse (.ofRoom room)).Accepts last s (stmt.levels ≤ room) rest fun node =>
      last.ast.HoldsStmt Token.forget node stmt

/-- The words of a block are accepted. -/
def AcceptsBlock (last : State) (body : Block Unit) : Prop :=
  ∀ room s rest, s.Ahead (body.words ++ rest) →
    (block (.ofRoom room)).Accepts last s (body.levels ≤ room) rest fun node =>
      last.ast.HoldsBlock Token.forget node body

/-- The words of the links after an `if` or `elif` are accepted. -/
def AcceptsLink (last : State) (link : Link Unit) : Prop :=
  ∀ branch room s rest, branch ≠ .elseBranch → s.Ahead (link.words ++ rest) →
    (nextKind rest).endsStatement = true →
    (nextLink (.ofRoom room) branch).Accepts last s (link.levels ≤ room) rest fun node? =>
      last.ast.HoldsLink Token.forget node? link

theorem endsExpression_block (body : Block Unit) (rest : List Word) :
    (nextKind (body.words ++ rest)).endsExpression = true := by
  cases body
  rfl

theorem accepts_varDecl {decl : VarDecl Unit} (valid : decl.isValid = true)
    (here : s.Ahead (decl.words ++ rest)) :
    (varDecl (.ofRoom room)).Accepts last s (decl.value.levels ≤ room) rest fun node =>
      last.ast.HoldsVarDecl Token.forget node decl := by
  simp only [VarDecl.isValid, Bool.and_eq_true] at valid
  have opening : s.Ahead (symbol .kwLet :: nameWord decl.name :: symbol .colon ::
      decl.type.word :: symbol .assignment :: (decl.value.words ++ symbol .semicolon :: rest)) := by
    simpa [VarDecl.words] using here
  refine accepts_advance_bind opening fun start t _ here => ?_
  refine accepts_eat_bind here rfl fun name t word here => ?_
  refine accepts_eat_bind here rfl fun _ t _ here => ?_
  refine (DataType.accepts_parseOrInvalid here).bind (fun _ => trivial) fun type t _ here heldType => ?_
  refine accepts_eat_bind here rfl fun _ t _ here => ?_
  refine (accepts_parseOrInvalid valid.2 here rfl).bind id fun value t yes here heldValue => ?_
  refine accepts_eat_bind here rfl fun _ t _ here => ?_
  rw [show name.text = decl.name from congrArg Word.text word]
  exact accepts_alloc yes here fun node shown => ⟨type, value, shown, heldType, heldValue⟩

theorem accepts_expression (valid : e.isValid = true) (here : s.Ahead (e.words ++ rest))
    (follow : (nextKind rest).endsExpression = true) :
    (expression (.ofRoom room)).Accepts last s (e.levels ≤ room) rest fun node =>
      ∃ x, last.ast.Shows Token.forget node (.exprStmt x) () ∧ Expression.Holds last e x := by
  apply accepts_current_bind
  refine (accepts_parseOrInvalid valid here follow).bind id fun x t yes here held => ?_
  exact accepts_alloc yes here fun node shown => ⟨x, shown, held⟩

theorem accepts_blockOrInvalid {body : Block Unit} (h : AcceptsBlock last body)
    (here : s.Ahead (body.words ++ rest)) :
    (blockOrInvalid (.ofRoom room)).Accepts last s (body.levels ≤ room) rest fun node =>
      last.ast.HoldsBlock Token.forget node body :=
  accepts_recover (h room s rest here)

/-! ### Blocks -/

theorem beforeBoundary?_eq_none (boundary : s.current.kind.isBoundary = true) :
    beforeBoundary? s = none := by
  unfold beforeBoundary?
  rw [boundary]
  rfl

theorem beforeBoundary?_eq_some (notBoundary : s.current.kind.isBoundary = false) :
    beforeBoundary? s = some s.current := by
  unfold beforeBoundary?
  rw [notBoundary]
  rfl

/-- A statement of a block, one level further in. -/
theorem accepts_inner_statement {stmt : Stmt Unit} (h : AcceptsStmt last stmt)
    (here : s.Ahead (stmt.words ++ rest)) (follow : (nextKind rest).endsStatement = true) :
    (Inner.ofRoom room).statement.Accepts last s (stmt.levels + 1 ≤ room) rest fun node =>
      last.ast.HoldsStmt Token.forget node stmt := by
  rw [Inner.ofRoom_statement]
  exact accepts_nested fun room => h room s rest here follow

theorem endsStatement_wordsOf (stmts : List (Stmt Unit)) (valid : Stmt.areValid stmts = true) :
    (nextKind (Stmt.wordsOf stmts ++ symbol .closeCurly :: rest)).endsStatement = true := by
  cases stmts with
  | nil => rfl
  | cons stmt stmts =>
    rw [Stmt.wordsOf, List.append_assoc]
    exact TokenKind.endsStatement_of_opensStatement
      (stmt.opensStatement_words (Bool.and_eq_true_iff.1 valid).1 _)

theorem accepts_blockRound {stmt : Stmt Unit} (h : AcceptsStmt last stmt) (token : Token)
    (body : Array NodeId) (here : s.Ahead (stmt.words ++ rest))
    (follow : (nextKind rest).endsStatement = true) :
    (blockRound (.ofRoom room) token body).Accepts last s (stmt.levels + 1 ≤ room) rest fun ids =>
      ∃ node, ids = body.push node ∧ last.ast.HoldsStmt Token.forget node stmt := by
  refine (accepts_recover (accepts_inner_statement h here follow)).bind id ?_
  exact fun node t yes here held => accepts_pure yes here ⟨node, rfl, held⟩

theorem accepts_statements_from : ∀ (stmts : List (Stmt Unit)) (body : Array NodeId) (s : State),
    Stmt.areValid stmts = true → (∀ stmt ∈ stmts, AcceptsStmt last stmt) →
    s.Ahead (Stmt.wordsOf stmts ++ symbol .closeCurly :: rest) →
    (foldWhile beforeBoundary? (blockRound (.ofRoom room)) (moves_blockRound _) body).Accepts last s
      (Stmt.bodyLevels stmts ≤ room) (symbol .closeCurly :: rest) fun ids =>
        ∃ more, ids.toList = body.toList ++ more ∧
          List.Forall₂ (last.ast.HoldsStmt Token.forget) more stmts
  | [], body, s, _, _, here => by
    have boundary : beforeBoundary? s = none :=
      beforeBoundary?_eq_none (by rw [here.kind_current]; rfl)
    exact accepts_foldWhile_done boundary (Nat.zero_le _) here ⟨[], by simp, .nil⟩
  | stmt :: stmts, body, s, valid, h, here => by
    obtain ⟨validFirst, validOthers⟩ := Bool.and_eq_true_iff.1 valid
    rw [Stmt.wordsOf, List.append_assoc] at here
    have opens := stmt.opensStatement_words validFirst
      (Stmt.wordsOf stmts ++ symbol .closeCurly :: rest)
    have given : beforeBoundary? s = some s.current := by
      apply beforeBoundary?_eq_some
      rw [here.kind_current]
      exact TokenKind.not_isBoundary_of_opensStatement opens
    have levels : Stmt.bodyLevels (stmt :: stmts) =
        max (stmt.levels + 1) (Stmt.bodyLevels stmts) := rfl
    rw [levels]
    refine accepts_foldWhile_again given ?_
    refine (accepts_blockRound (h stmt (by simp)) _ _ here
      (endsStatement_wordsOf stmts validOthers)).bind (by omega) ?_
    rintro _ t yes here ⟨node, rfl, held⟩
    have others := accepts_statements_from stmts (body.push node) t validOthers
      (fun stmt mem => h stmt (List.mem_cons_of_mem _ mem)) here
    refine others.imp (by omega) ?_
    rintro ids ⟨more, split, held'⟩
    exact ⟨node :: more, by simp [split], .cons held held'⟩

theorem acceptsBlock_mk {stmts : List (Stmt Unit)} (valid : Stmt.areValid stmts = true)
    (h : ∀ stmt ∈ stmts, AcceptsStmt last stmt) : AcceptsBlock last (.mk () stmts) := by
  intro room s rest here
  have opening : s.Ahead (symbol .openCurly :: (Stmt.wordsOf stmts ++ symbol .closeCurly :: rest)) := by
    simpa [Block.words] using here
  apply Attempt.accepts_look_bind
  rw [if_pos (show s.current.kind = .openCurly from opening.kind_current)]
  refine Attempt.accepts_advance_bind opening fun _ t _ here => ?_
  refine Attempt.Accepts.bind (Attempt.accepts_lift (accepts_statements_from stmts #[] t valid h here))
    id ?_
  rintro ids t yes here ⟨more, split, held⟩
  refine accepts_lift_eat_bind here rfl fun _ t _ here => ?_
  refine Attempt.accepts_lift (accepts_alloc yes here fun node shown => .mk shown ?_)
  rw [split]
  simpa using held

/-! ### Conditionals -/

theorem accepts_condition {branch : Branch} (guarded : branch ≠ .elseBranch)
    (valid : e.isValid = true) (here : s.Ahead (e.words ++ rest))
    (follow : (nextKind rest).endsExpression = true) :
    (condition (.ofRoom room) branch).Accepts last s (e.levels ≤ room) rest fun c? =>
      ∃ c, c? = some c ∧ Expression.Holds last e c := by
  have expr : (do
      let c ← Expression.parseOrInvalid (Inner.ofRoom room).exprs
      return some c : Parser (Option NodeId)).Accepts last s (e.levels ≤ room) rest fun c? =>
        ∃ c, c? = some c ∧ Expression.Holds last e c :=
    (accepts_parseOrInvalid valid here follow).bind id fun c t yes here held =>
      accepts_pure yes here ⟨c, rfl, held⟩
  cases branch with
  | elseBranch => contradiction
  | ifBranch => exact expr
  | elifBranch => exact expr

theorem accepts_conditional (branch : Branch) {keyword : Word} {condition : Expr Unit}
    {body : Block Unit} {next : Link Unit} (guarded : branch ≠ .elseBranch)
    (valid : condition.isValid = true) (hb : AcceptsBlock last body) (hn : AcceptsLink last next)
    (here : s.Ahead (keyword :: condition.words ++ body.words ++ next.words ++ rest))
    (follow : (nextKind rest).endsStatement = true) :
    (conditional (.ofRoom room) branch).Accepts last s
      (max condition.levels (max body.levels next.levels) ≤ room) rest fun node =>
      ∃ c b n, last.ast.Shows Token.forget node (.conditional branch (some c) b n) () ∧
        Expression.Holds last condition c ∧ last.ast.HoldsBlock Token.forget b body ∧
        last.ast.HoldsLink Token.forget n next := by
  have opening : s.Ahead (keyword :: (condition.words ++ (body.words ++ (next.words ++ rest)))) := by
    simpa using here
  refine Attempt.accepts_advance_bind opening fun start t _ here => ?_
  refine Attempt.Accepts.bind (Attempt.accepts_lift
    (accepts_condition guarded valid here (endsExpression_block body _))) (by omega) ?_
  rintro _ t yes here ⟨c, rfl, held⟩
  refine Attempt.Accepts.bind (Attempt.accepts_lift (accepts_blockOrInvalid hb here)) (by omega) ?_
  intro b t yes' here heldBody
  refine (hn branch room t rest guarded here follow).bind (by omega) ?_
  intro n t yes'' here heldNext
  refine Attempt.accepts_lift (accepts_alloc (by omega) here fun node shown => ?_)
  exact ⟨c, b, n, shown, held, heldBody, heldNext⟩

theorem acceptsLink_done : AcceptsLink last .done := by
  intro branch room s rest guarded here follow
  have kind : s.current.kind = nextKind rest := State.Ahead.kind_current here
  have done : (pure none : Attempt (Option NodeId)).Accepts last s (0 ≤ room) rest fun node? =>
      last.ast.HoldsLink Token.forget node? .done :=
    Attempt.accepts_pure (Nat.zero_le _) here .done
  apply Attempt.accepts_look_bind
  rw [kind]
  split
  · exact done
  · rename_i isElif
    simp [isElif, TokenKind.endsStatement] at follow
  · rename_i isElse
    simp [isElse, TokenKind.endsStatement] at follow
  · exact done

/-- The link after an `if` or `elif` is the one that the current token starts, one level
further in. -/
theorem accepts_nextLink {branch link : Branch} {n : Nat} {next : Link Unit}
    (guarded : branch ≠ .elseBranch)
    (starts : s.current.kind = .kwElif ∧ link = .elifBranch ∨
      s.current.kind = .kwElse ∧ link = .elseBranch)
    (h : ∀ room, (conditional (.ofRoom room) link).Accepts last s (n ≤ room) rest fun node =>
      last.ast.HoldsLink Token.forget (some node) next) :
    (nextLink (.ofRoom room) branch).Accepts last s (n + 1 ≤ room) rest fun node? =>
      last.ast.HoldsLink Token.forget node? next := by
  have some : (do
      let node ← (Inner.ofRoom room).conditional link
      return some node : Attempt (Option NodeId)).Accepts last s (n + 1 ≤ room) rest fun node? =>
        last.ast.HoldsLink Token.forget node? next := by
    rw [Inner.ofRoom_conditional]
    exact (accepts_nested h).bind id fun node t yes here held => Attempt.accepts_pure yes here held
  apply Attempt.accepts_look_bind
  rcases starts with ⟨kind, rfl⟩ | ⟨kind, rfl⟩
  · rw [kind]
    cases branch with
    | elseBranch => contradiction
    | ifBranch => exact some
    | elifBranch => exact some
  · rw [kind]
    cases branch with
    | elseBranch => contradiction
    | ifBranch => exact some
    | elifBranch => exact some

theorem acceptsLink_elif {condition : Expr Unit} {body : Block Unit} {next : Link Unit}
    (valid : condition.isValid = true) (hb : AcceptsBlock last body) (hn : AcceptsLink last next) :
    AcceptsLink last (.elifLink () condition body next) := by
  intro branch room s rest guarded here follow
  refine accepts_nextLink guarded (.inl ⟨State.Ahead.kind_current here, rfl⟩) fun room => ?_
  refine (accepts_conditional .elifBranch (by decide) valid hb hn here follow).imp .rfl ?_
  rintro node ⟨c, b, n, shown, held, heldBody, heldNext⟩
  exact .elifLink shown held heldBody heldNext

theorem acceptsLink_else {body : Block Unit} (hb : AcceptsBlock last body) :
    AcceptsLink last (.elseLink () body) := by
  intro branch room s rest guarded here follow
  refine accepts_nextLink guarded (.inr ⟨State.Ahead.kind_current here, rfl⟩) fun room => ?_
  refine Attempt.accepts_advance_bind here fun start t _ here => ?_
  refine Attempt.Accepts.bind (Q := fun c? => c? = none)
    (Attempt.accepts_lift (accepts_pure trivial here rfl)) (fun _ => trivial) ?_
  rintro _ t _ here rfl
  refine Attempt.Accepts.bind (Attempt.accepts_lift (accepts_blockOrInvalid hb here)) id ?_
  intro b t yes here held
  refine Attempt.Accepts.bind (Q := fun n? => n? = none)
    (Attempt.accepts_pure trivial here rfl) (fun _ => trivial) ?_
  rintro _ t _ here rfl
  exact Attempt.accepts_lift (accepts_alloc yes here fun node shown => .elseLink shown held)

/-! ### Statements -/

/-- A statement that is no `for`. -/
theorem accepts_parse_of_straight {fits : Prop} {Q : NodeId → Prop}
    (notFor : s.current.kind.form? ≠ some .forLoop)
    (h : (straight (.ofRoom room)).Accepts last s fits rest Q) :
    (parse (.ofRoom room)).Accepts last s fits rest Q := by
  apply Attempt.accepts_look_bind
  rw [if_neg notFor]
  exact h

theorem acceptsStmt_varDecl {decl : VarDecl Unit} (valid : decl.isValid = true) :
    AcceptsStmt last (.varDecl decl) := by
  intro room s rest here _
  have kind : s.current.kind = .kwLet := State.Ahead.kind_current here
  refine accepts_parse_of_straight (by rw [kind]; decide) ?_
  apply Attempt.accepts_look_bind
  rw [kind]
  exact Attempt.accepts_lift ((accepts_varDecl valid here).imp .rfl fun _ held => .varDecl held)

theorem acceptsStmt_expr (valid : e.isValid = true) : AcceptsStmt last (.expr () e) := by
  intro room s rest here _
  have opening : s.Ahead (e.words ++ symbol .semicolon :: rest) := by
    simpa [Stmt.words] using here
  have starts := opening.kind_current ▸ e.startsExpression_words valid (symbol .semicolon :: rest)
  have accepts : (terminated (.ofRoom room)).Accepts last s (e.levels ≤ room) rest fun node =>
      last.ast.HoldsStmt Token.forget node (.expr () e) := by
    refine (accepts_expression valid opening rfl).bind id ?_
    rintro node t yes here ⟨x, shown, held⟩
    refine accepts_eat_bind here rfl fun _ t _ here => ?_
    exact accepts_pure yes here (.expr shown held)
  have none := TokenKind.form?_eq_none (TokenKind.startsStatement_of_startsExpression starts)
  refine accepts_parse_of_straight (by rw [none]; nofun) ?_
  apply Attempt.accepts_look_bind
  rw [none]
  exact accepts

theorem acceptsStmt_ret : AcceptsStmt last (.ret () none) := by
  intro room s rest here _
  have kind : s.current.kind = .kwReturn := State.Ahead.kind_current here
  refine accepts_parse_of_straight (by rw [kind]; decide) ?_
  apply Attempt.accepts_look_bind
  rw [kind]
  apply Attempt.accepts_lift
  refine accepts_advance_bind here fun start t _ here => ?_
  have value : (returnValue (.ofRoom room)).Accepts last t True (symbol .semicolon :: rest)
      fun value => value = none := by
    apply accepts_current_bind
    rw [if_pos (show t.current.kind = .semicolon from State.Ahead.kind_current here)]
    exact accepts_pure trivial here rfl
  refine value.bind (fun _ => trivial) ?_
  rintro _ t _ here rfl
  refine accepts_eat_bind here rfl fun _ t _ here => ?_
  exact accepts_alloc (Nat.zero_le _) here fun node shown => .ret shown

theorem acceptsStmt_retValue (valid : e.isValid = true) : AcceptsStmt last (.ret () (some e)) := by
  intro room s rest here _
  have opening : s.Ahead (symbol .kwReturn :: (e.words ++ symbol .semicolon :: rest)) := by
    simpa [Stmt.words] using here
  have kind : s.current.kind = .kwReturn := opening.kind_current
  refine accepts_parse_of_straight (by rw [kind]; decide) ?_
  apply Attempt.accepts_look_bind
  rw [kind]
  apply Attempt.accepts_lift
  refine accepts_advance_bind opening fun start t _ here => ?_
  have value : (returnValue (.ofRoom room)).Accepts last t (e.levels ≤ room)
      (symbol .semicolon :: rest) fun value =>
        ∃ x, value = some x ∧ Expression.Holds last e x := by
    have starts := here.kind_current ▸ e.startsExpression_words valid (symbol .semicolon :: rest)
    have notEmpty : t.current.kind ≠ .semicolon := by
      intro isSemicolon
      simp [isSemicolon, TokenKind.startsExpression] at starts
    apply accepts_current_bind
    rw [if_neg notEmpty]
    exact (accepts_parseOrInvalid valid here rfl).bind id fun x t yes here held =>
      accepts_pure yes here ⟨x, rfl, held⟩
  refine value.bind id ?_
  rintro _ t yes here ⟨x, rfl, held⟩
  refine accepts_eat_bind here rfl fun _ t _ here => ?_
  exact accepts_alloc yes here fun node shown => .retValue shown held

theorem acceptsStmt_ifElse {condition : Expr Unit} {body : Block Unit} {next : Link Unit}
    (valid : condition.isValid = true) (hb : AcceptsBlock last body) (hn : AcceptsLink last next) :
    AcceptsStmt last (.ifElse () condition body next) := by
  intro room s rest here follow
  have kind : s.current.kind = .kwIf := State.Ahead.kind_current here
  refine accepts_parse_of_straight (by rw [kind]; decide) ?_
  apply Attempt.accepts_look_bind
  rw [kind]
  refine (accepts_conditional .ifBranch (by decide) valid hb hn here follow).imp .rfl ?_
  rintro node ⟨c, b, n, shown, held, heldBody, heldNext⟩
  exact .ifElse shown held heldBody heldNext

theorem acceptsStmt_whileLoop {condition : Expr Unit} {body : Block Unit}
    (valid : condition.isValid = true) (hb : AcceptsBlock last body) :
    AcceptsStmt last (.whileLoop () condition body) := by
  intro room s rest here _
  have opening : s.Ahead (symbol .kwWhile :: (condition.words ++ (body.words ++ rest))) := by
    simpa [Stmt.words] using here
  have kind : s.current.kind = .kwWhile := opening.kind_current
  have levels : (Stmt.whileLoop () condition body).levels = max condition.levels body.levels := rfl
  rw [levels]
  refine accepts_parse_of_straight (by rw [kind]; decide) ?_
  apply Attempt.accepts_look_bind
  rw [kind]
  apply Attempt.accepts_lift
  refine accepts_advance_bind opening fun start t _ here => ?_
  refine (accepts_parseOrInvalid valid here (endsExpression_block body rest)).bind (by omega) ?_
  intro c t fits here held
  refine (accepts_blockOrInvalid hb here).bind (by omega) fun b t fitsBody here heldBody => ?_
  exact accepts_alloc (by omega) here fun node shown => .whileLoop shown held heldBody

theorem acceptsStmt_doWhileLoop {condition : Expr Unit} {body : Block Unit}
    (valid : condition.isValid = true) (hb : AcceptsBlock last body) :
    AcceptsStmt last (.doWhileLoop () body condition) := by
  intro room s rest here _
  have opening : s.Ahead (symbol .kwDo :: (body.words ++ symbol .kwWhile ::
      (condition.words ++ symbol .semicolon :: rest))) := by
    simpa [Stmt.words] using here
  have kind : s.current.kind = .kwDo := opening.kind_current
  have levels : (Stmt.doWhileLoop () body condition).levels =
      max body.levels condition.levels := rfl
  rw [levels]
  refine accepts_parse_of_straight (by rw [kind]; decide) ?_
  apply Attempt.accepts_look_bind
  rw [kind]
  apply Attempt.accepts_lift
  refine accepts_advance_bind opening fun start t _ here => ?_
  refine (accepts_blockOrInvalid hb here).bind (by omega) fun b t fitsBody here heldBody => ?_
  refine accepts_eat_bind here rfl fun _ t _ here => ?_
  refine (accepts_parseOrInvalid valid here rfl).bind (by omega) fun c t fits here held => ?_
  refine accepts_eat_bind here rfl fun _ t _ here => ?_
  exact accepts_alloc (by omega) here fun node shown => .doWhileLoop shown heldBody held

theorem acceptsStmt_forLoop {init : Stmt Unit} {condition action : Expr Unit} {body : Block Unit}
    (validCondition : condition.isValid = true) (validAction : action.isValid = true)
    (hi : AcceptsStmt last init) (hb : AcceptsBlock last body) :
    AcceptsStmt last (.forLoop () init condition () action body) := by
  intro room s rest here _
  have opening : s.Ahead (symbol .kwFor :: symbol .openParen :: (init.words ++ (condition.words ++
      symbol .semicolon :: (action.words ++ symbol .closeParen :: (body.words ++ rest))))) := by
    simpa [Stmt.words] using here
  have levels : (Stmt.forLoop () init condition () action body).levels =
      max init.levels (max condition.levels (max action.levels body.levels)) := rfl
  -- The initializer brings its own `;`, so it is the condition that follows it.
  have follow : (nextKind (condition.words ++ symbol .semicolon :: (action.words ++
      symbol .closeParen :: (body.words ++ rest)))).endsStatement = true :=
    TokenKind.endsStatement_of_opensStatement (TokenKind.opensStatement_of_startsExpression
      (condition.startsExpression_words validCondition _))
  rw [levels]
  apply Attempt.accepts_look_bind
  have isFor : s.current.kind.form? = some .forLoop := by
    rw [opening.kind_current]
    rfl
  rw [if_pos isFor, forLoop_eq]
  apply Attempt.accepts_lift
  have start : forOpening.Accepts last s True (init.words ++ (condition.words ++
      symbol .semicolon :: (action.words ++ symbol .closeParen :: (body.words ++ rest))))
      fun _ => True := by
    refine accepts_advance_bind opening fun start t _ here => ?_
    refine accepts_eat_bind here rfl fun _ t _ here => ?_
    exact accepts_pure trivial here trivial
  refine start.bind (fun _ => trivial) fun start t _ here _ => ?_
  refine (accepts_recover (hi room t _ here follow)).bind (by omega) ?_
  intro i t fitsInit here heldInit
  refine (accepts_parseOrInvalid validCondition here rfl).bind (by omega) ?_
  intro c t fits here held
  refine accepts_eat_bind here rfl fun _ t _ here => ?_
  refine (accepts_expression validAction here rfl).bind (by omega) ?_
  rintro a t fitsAction here ⟨x, shownAction, heldAction⟩
  refine accepts_eat_bind here rfl fun _ t _ here => ?_
  refine (accepts_blockOrInvalid hb here).bind (by omega) fun b t fitsBody here heldBody => ?_
  exact accepts_alloc (by omega) here fun node shown =>
    .forLoop shown heldInit held shownAction heldAction heldBody

theorem acceptsStmt_block {body : Block Unit} (hb : AcceptsBlock last body) :
    AcceptsStmt last (.block body) := by
  intro room s rest here _
  have kind : s.current.kind = .openCurly := by
    rw [State.Ahead.kind_current here]
    cases body
    rfl
  refine accepts_parse_of_straight (by rw [kind]; decide) ?_
  apply Attempt.accepts_look_bind
  rw [kind]
  exact (hb room s rest here).imp .rfl fun _ held => .block held

mutual
/-- **Every statement that can be written is accepted.** -/
theorem acceptsStmt (stmt : Stmt Unit) (valid : stmt.isValid = true) : AcceptsStmt last stmt := by
  match stmt with
  | .varDecl decl => exact acceptsStmt_varDecl valid
  | .expr _ e => exact acceptsStmt_expr valid
  | .ret _ none => exact acceptsStmt_ret
  | .ret _ (some e) => exact acceptsStmt_retValue valid
  | .ifElse _ condition body next =>
    simp only [Stmt.isValid, Bool.and_eq_true] at valid
    exact acceptsStmt_ifElse valid.1.1 (acceptsBlock body valid.1.2) (acceptsLink next valid.2)
  | .whileLoop _ condition body =>
    simp only [Stmt.isValid, Bool.and_eq_true] at valid
    exact acceptsStmt_whileLoop valid.1 (acceptsBlock body valid.2)
  | .doWhileLoop _ body condition =>
    simp only [Stmt.isValid, Bool.and_eq_true] at valid
    exact acceptsStmt_doWhileLoop valid.2 (acceptsBlock body valid.1)
  | .forLoop _ init condition _ action body =>
    simp only [Stmt.isValid, Bool.and_eq_true] at valid
    exact acceptsStmt_forLoop valid.1.1.2 valid.1.2 (acceptsStmt init valid.1.1.1)
      (acceptsBlock body valid.2)
  | .block body => exact acceptsStmt_block (acceptsBlock body valid)
termination_by sizeOf stmt

theorem acceptsBlock (body : Block Unit) (valid : body.isValid = true) : AcceptsBlock last body := by
  match body with
  | .mk _ stmts =>
    exact acceptsBlock_mk valid fun stmt mem => acceptsStmt stmt (Stmt.isValid_of_mem valid mem)
termination_by sizeOf body

theorem acceptsLink (link : Link Unit) (valid : link.isValid = true) : AcceptsLink last link := by
  match link with
  | .done => exact acceptsLink_done
  | .elifLink _ condition body next =>
    simp only [Link.isValid, Bool.and_eq_true] at valid
    exact acceptsLink_elif valid.1.1 (acceptsBlock body valid.1.2) (acceptsLink next valid.2)
  | .elseLink _ body => exact acceptsLink_else (acceptsBlock body valid)
termination_by sizeOf link
end

end Statement

end Viper
