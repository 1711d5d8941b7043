/-
# What is parsed without an error is in the grammar

Each parser, seen from the last state of a parse in which nothing is recorded, reads tokens
that the grammar derives, and makes the node of the tree that it derives them for. The
parsers of a construct are taken one by one, under the assumption that the parsers one level
further in do the same (`Expression.Inner.Sound`, `Statement.Inner.Sound`); an induction over
the room that is left gives it at every level.

Key definitions: `Expression.Inner.Sound`, `Statement.Inner.Sound`.
Key theorems: `Source.parse_derivable`.
-/
import ViperFrontend.Proofs.Parser.Construction
import ViperFrontend.Proofs.Parser.Progress
import ViperFrontend.Proofs.Parser.Reading

namespace Viper

open Viper.Parser
open Grammar (Stands)

variable {s last : State}

namespace DataType

theorem reads_token :
    token.Reads last s fun read t => read = [t] ∧ (t.kind = .identifier ∨ t.kind = .kwVoid) := by
  apply Attempt.reads_look_bind
  split
  · rename_i kind
    exact Attempt.reads_lift (reads_advance (ahead_ne_nil_of_kind kind (by decide)) ⟨rfl, .inl kind⟩)
  · rename_i kind
    exact Attempt.reads_lift (reads_advance (ahead_ne_nil_of_kind kind (by decide)) ⟨rfl, .inr kind⟩)
  · exact Attempt.reads_throw _

theorem reads_parse : parse.Reads last s (Stands Grammar.TypeOf (last.ast.HoldsType id)) := by
  refine reads_token.bind ?_
  rintro t u read ⟨rfl, kind⟩
  exact reads_alloc fun node shown => ⟨_, .mk kind, shown⟩

theorem reads_parseOrInvalid :
    parseOrInvalid.Reads last s (Stands Grammar.TypeOf (last.ast.HoldsType id)) :=
  reads_recover reads_parse

end DataType

namespace Expression

/-- The parsers one level further in read what the grammar asks of them. Behind a left operand,
an operator and its right operand make one chain with it. -/
structure Inner.Sound (inner : Inner) (last : State) : Prop where
  primary : ∀ s, inner.primary.Reads last s (Stands Grammar.Primary (last.ast.HoldsExpr id))
  binary : ∀ s left p, s.current.kind.precedence?.isSome = true →
    (inner.binary left p).Reads last s fun read node => ∀ ts,
      Stands Grammar.Chain (last.ast.HoldsExpr id) ts left →
        Stands Grammar.Chain (last.ast.HoldsExpr id) (ts ++ read) node
  identifier : ∀ s, s.current.kind = .identifier →
    inner.identifier.Reads last s (Stands Grammar.Named (last.ast.HoldsExpr id))

variable {inner : Inner}

theorem ahead_ne_nil_of_precedence? (h : s.current.kind.precedence?.isSome = true) :
    s.ahead ≠ [] := by
  apply State.ahead_ne_nil
  intro eof
  simp [eof, TokenKind.precedence?] at h

theorem reads_binary (h : inner.Sound last) (left : NodeId) (p : Precedence)
    (isOperator : s.current.kind.precedence?.isSome = true) :
    (binary inner left p).Reads last s fun read node => ∀ ts,
      Stands Grammar.Chain (last.ast.HoldsExpr id) ts left →
        Stands Grammar.Chain (last.ast.HoldsExpr id) (ts ++ read) node := by
  refine Attempt.reads_advance_bind (ahead_ne_nil_of_precedence? isOperator) ?_
  refine (h.primary _).bind ?_
  rintro operand t us ⟨e, derived, held⟩
  refine (Attempt.Reads.foldWhile (fun read right =>
    Stands Grammar.Chain (last.ast.HoldsExpr id) (us ++ read) right) ?_ ?_).bind ?_
  · exact ⟨e, by simpa using .operand derived, held⟩
  · intro next right t read given chain
    have isSome : t.current.kind.precedence?.isSome = true :=
      Option.isSome_iff_exists.2 ⟨next, (Option.filter_eq_some_iff.1 given).1⟩
    refine (h.binary t right next isSome).imp ?_
    intro more node joins
    rw [← List.append_assoc]
    exact joins _ chain
  · rintro right t read ⟨r, derivedRight, heldRight⟩
    refine Attempt.reads_lift (reads_alloc ?_)
    rintro node shown ts ⟨l, derivedLeft, heldLeft⟩
    refine ⟨_, ?_, .binary shown heldLeft heldRight⟩
    rw [List.append_nil]
    exact derivedLeft.binary isOperator derivedRight

theorem reads_parse (h : inner.Sound last) :
    (parse inner).Reads last s (Stands Grammar.Chain (last.ast.HoldsExpr id)) := by
  refine (h.primary s).bind ?_
  rintro operand t us ⟨e, derived, held⟩
  refine Attempt.Reads.foldWhile _ ?_ ?_
  · exact ⟨e, by simpa using .operand derived, held⟩
  · intro p left t read given chain
    refine (reads_binary h left p (Option.isSome_iff_exists.2 ⟨p, given⟩)).imp ?_
    intro more node joins
    rw [← List.append_assoc]
    exact joins _ chain

theorem reads_parseOrInvalid (h : inner.Sound last) :
    (parseOrInvalid inner).Reads last s (Stands Grammar.Chain (last.ast.HoldsExpr id)) :=
  reads_recover (reads_parse h)

theorem reads_prefixed (h : inner.Sound last)
    (isOperator : s.current.kind.isPrefixOperator = true) :
    (prefixed inner).Reads last s (Stands Grammar.Primary (last.ast.HoldsExpr id)) := by
  have some : s.ahead ≠ [] := by
    apply State.ahead_ne_nil
    intro eof
    simp [eof, TokenKind.isPrefixOperator] at isOperator
  refine Attempt.reads_advance_bind some ?_
  refine (h.primary _).bind ?_
  rintro operand t read ⟨e, derived, held⟩
  refine Attempt.reads_lift (reads_alloc fun node shown => ⟨_, ?_, .prefixed shown held⟩)
  rw [List.append_nil]
  exact .prefixed isOperator derived

/-- A literal is one token. -/
theorem reads_literal {make : Token → Construct} {holds : NodeId → Program.Expr Token → Prop}
    {G : List Token → Program.Expr Token → Prop} (some : s.ahead ≠ [])
    (h : ∀ node, last.ast.Shows id node (make s.current) s.current → Stands G holds [s.current] node) :
    (advance >>= fun token => alloc (make token) token).Reads last s (Stands G holds) :=
  reads_advance_bind some (reads_alloc h)

/-- So is a number literal, if it has a value. -/
theorem reads_numeral {α : Type} {read? : String → Option α} {make : α → Construct}
    {holds : NodeId → Program.Expr Token → Prop} {G : List Token → Program.Expr Token → Prop}
    (some : s.ahead ≠ [])
    (h : ∀ value, value ∈ read? s.current.text → ∀ node,
      last.ast.Shows id node (make value) s.current → Stands G holds [s.current] node) :
    (numeral read? make).Reads last s (Stands G holds) := by
  refine Attempt.reads_advance_bind some ?_
  split
  · rename_i value given
    exact Attempt.reads_lift (reads_alloc (h value given))
  · exact Attempt.reads_throw _

theorem reads_grouping (h : inner.Sound last) (kind : s.current.kind = .openParen) :
    (grouping inner).Reads last s (Stands Grammar.Primary (last.ast.HoldsExpr id)) := by
  refine Attempt.reads_advance_bind (ahead_ne_nil_of_kind kind (by decide)) ?_
  refine (reads_parse h).bind ?_
  rintro node t read ⟨e, derived, held⟩
  refine reads_lift_eat_bind (by decide) fun closing t kind' => ?_
  exact Attempt.reads_pure ⟨e, by simpa using .group kind derived kind', held⟩

theorem reads_call (h : inner.Sound last) (kind : s.current.kind = .identifier)
    (kind' : s.peek.kind = .openParen) :
    (call inner).Reads last s (Stands Grammar.Named (last.ast.HoldsExpr id)) := by
  rw [← State.current_advance] at kind'
  refine reads_advance_bind (ahead_ne_nil_of_kind kind (by decide)) ?_
  refine reads_advance_bind (ahead_ne_nil_of_kind kind' (by decide)) ?_
  refine (reads_commaList fun t => reads_parseOrInvalid h).bind ?_
  rintro arguments t read ⟨es, derived, held⟩
  refine reads_eat_bind (by decide) fun closing t kind'' => ?_
  refine reads_alloc fun node shown => ⟨_, ?_, .call shown held⟩
  exact .call kind kind' derived kind''

theorem reads_indexed (h : inner.Sound last) (kind : s.current.kind = .identifier)
    (kind' : s.peek.kind = .openBracket) :
    (indexed inner).Reads last s (Stands Grammar.Named (last.ast.HoldsExpr id)) := by
  rw [← State.current_advance] at kind'
  refine reads_advance_bind (ahead_ne_nil_of_kind kind (by decide)) ?_
  refine reads_advance_bind (ahead_ne_nil_of_kind kind' (by decide)) ?_
  refine (reads_parseOrInvalid h).bind ?_
  rintro index t read ⟨e, derived, held⟩
  refine reads_eat_bind (by decide) fun closing t kind'' => ?_
  refine reads_alloc fun node shown => ⟨_, ?_, .index shown held⟩
  exact .index kind kind' derived kind''

theorem reads_member (h : inner.Sound last) (kind : s.current.kind = .identifier)
    (kind' : s.peek.kind = .dot) :
    (member inner).Reads last s (Stands Grammar.Named (last.ast.HoldsExpr id)) := by
  rw [← State.current_advance] at kind'
  refine Attempt.reads_advance_bind (ahead_ne_nil_of_kind kind (by decide)) ?_
  refine Attempt.reads_alloc_bind fun object shownObject => ?_
  refine Attempt.reads_advance_bind (ahead_ne_nil_of_kind kind' (by decide)) ?_
  apply Attempt.reads_look_bind
  split
  · rename_i isName
    refine (h.identifier _ isName).bind ?_
    rintro field t read ⟨e, derived, held⟩
    refine Attempt.reads_lift (reads_alloc fun node shown => ⟨_, ?_, .member shown shownObject held⟩)
    rw [List.append_nil]
    exact .member kind kind' derived
  · exact Attempt.reads_throw _

theorem reads_name (kind : s.current.kind = .identifier) :
    name.Reads last s (Stands Grammar.Named (last.ast.HoldsExpr id)) :=
  reads_literal (ahead_ne_nil_of_kind kind (by decide)) fun node shown =>
    ⟨_, .name kind, .name shown⟩

theorem reads_identifier (h : inner.Sound last) (kind : s.current.kind = .identifier) :
    (identifier inner).Reads last s (Stands Grammar.Named (last.ast.HoldsExpr id)) := by
  apply Attempt.reads_look_bind
  split
  · exact Attempt.reads_lift (reads_call h kind ‹_›)
  · exact Attempt.reads_lift (reads_indexed h kind ‹_›)
  · exact reads_member h kind ‹_›
  · exact Attempt.reads_lift (reads_name kind)

theorem reads_primary (h : inner.Sound last) :
    (primary inner).Reads last s (Stands Grammar.Primary (last.ast.HoldsExpr id)) := by
  apply Attempt.reads_look_bind
  split
  · exact reads_prefixed h (by rw [‹s.current.kind = _›]; rfl)
  · exact reads_prefixed h (by rw [‹s.current.kind = _›]; rfl)
  · exact reads_prefixed h (by rw [‹s.current.kind = _›]; rfl)
  · rename_i kind
    refine Attempt.reads_lift (reads_literal (ahead_ne_nil_of_kind kind (by decide)) ?_)
    intro node shown
    exact ⟨_, .true kind, .boolean (by simpa [kind] using shown)⟩
  · rename_i kind
    refine Attempt.reads_lift (reads_literal (ahead_ne_nil_of_kind kind (by decide)) ?_)
    intro node shown
    exact ⟨_, .false kind, .boolean (by simpa [kind] using shown)⟩
  · rename_i kind
    refine reads_numeral (ahead_ne_nil_of_kind kind (by decide)) fun value given node shown => ?_
    exact ⟨_, .integer kind given, .integer shown⟩
  · rename_i kind
    refine reads_numeral (ahead_ne_nil_of_kind kind (by decide)) fun value given node shown => ?_
    exact ⟨_, .float kind given, .float shown⟩
  · rename_i kind
    refine Attempt.reads_lift (reads_literal (ahead_ne_nil_of_kind kind (by decide)) ?_)
    exact fun node shown => ⟨_, .string kind, .string shown⟩
  · refine (reads_identifier h ‹_›).imp ?_
    rintro read node ⟨e, derived, held⟩
    exact ⟨e, .named derived, held⟩
  · exact reads_grouping h ‹_›
  · exact Attempt.reads_throw _

theorem sound_refusing : Inner.refusing.Sound last where
  primary _ := reads_tooDeep
  binary _ _ _ _ := reads_tooDeep
  identifier _ _ := reads_tooDeep

theorem sound_around (h : inner.Sound last) : (Inner.around inner).Sound last where
  primary _ := reads_primary h
  binary _ left p isOperator := reads_binary h left p isOperator
  identifier _ kind := reads_identifier h kind

/-- At every depth the parsers of an expression read what the grammar asks of them. -/
theorem sound_ofRoom : ∀ room : Nat, (Inner.ofRoom room).Sound last
  | 0 => sound_refusing
  | room + 1 => sound_around (sound_ofRoom room)

end Expression
namespace Statement

/-- What a link of a conditional chain reads: with an `if` a statement, and otherwise the rest
of the chain. -/
def Clause (last : State) : Branch → List Token → NodeId → Prop
  | .ifBranch => Stands Grammar.Stmt (last.ast.HoldsStmt id)
  | .elifBranch | .elseBranch => Stands Grammar.Link fun node => last.ast.HoldsLink id (some node)

/-- The keyword of a link. -/
def keyword : Branch → TokenKind
  | .ifBranch => .kwIf
  | .elifBranch => .kwElif
  | .elseBranch => .kwElse

/-- The parsers one level further in read what the grammar asks of them. -/
structure Inner.Sound (inner : Inner) (last : State) : Prop where
  exprs : inner.exprs.Sound last
  statement : ∀ s, inner.statement.Reads last s (Stands Grammar.Stmt (last.ast.HoldsStmt id))
  conditional : ∀ s branch, s.current.kind = keyword branch →
    (inner.conditional branch).Reads last s (Clause last branch)

variable {inner : Inner}

/-- An expression statement stands at the first token of its expression. -/
theorem reads_expression (h : inner.Sound last) :
    (expression inner).Reads last s fun read node => ∃ t ts e x, read = t :: ts ∧
      Grammar.Chain (t :: ts) e ∧ last.ast.Shows id node (.exprStmt x) t ∧
      last.ast.HoldsExpr id x e := by
  apply reads_current_bind
  refine (Expression.reads_parseOrInvalid h.exprs).first.bind ?_
  rintro x t read ⟨⟨e, derived, held⟩, first⟩
  obtain ⟨start, ts, rfl⟩ := List.exists_cons_of_ne_nil derived.ne_nil
  refine reads_alloc fun node shown => ⟨start, ts, e, x, by simp, derived, ?_, held⟩
  rwa [first start ts rfl]

theorem reads_varDecl (h : inner.Sound last) (kind : s.current.kind = .kwLet) :
    (varDecl inner).Reads last s (Stands Grammar.Let (last.ast.HoldsVarDecl id)) := by
  refine reads_advance_bind (ahead_ne_nil_of_kind kind (by decide)) ?_
  refine reads_eat_bind (by decide) fun name t isName => ?_
  refine reads_eat_bind (by decide) fun colon t isColon => ?_
  refine DataType.reads_parseOrInvalid.bind ?_
  rintro type t ts ⟨_, derivedType, heldType⟩
  refine reads_eat_bind (by decide) fun equals t isEquals => ?_
  refine (Expression.reads_parseOrInvalid h.exprs).bind ?_
  rintro value t us ⟨e, derived, held⟩
  refine reads_eat_bind (by decide) fun semicolon t isSemicolon => ?_
  refine reads_alloc fun node shown => ⟨⟨s.current, name.text, _, e⟩, ?_, type, value, shown, heldType, held⟩
  simpa using Grammar.Let.mk kind isName isColon derivedType isEquals derived isSemicolon

theorem reads_returnStmt (h : inner.Sound last) (kind : s.current.kind = .kwReturn) :
    (returnStmt inner).Reads last s (Stands Grammar.Stmt (last.ast.HoldsStmt id)) := by
  refine reads_advance_bind (ahead_ne_nil_of_kind kind (by decide)) ?_
  have value : (returnValue inner).Reads last s.advance fun read value =>
      read = [] ∧ value = none ∨
        ∃ x, value = some x ∧ Stands Grammar.Chain (last.ast.HoldsExpr id) read x := by
    apply reads_current_bind
    split
    · exact reads_pure (.inl ⟨rfl, rfl⟩)
    · refine (Expression.reads_parseOrInvalid h.exprs).bind fun x t read stands => ?_
      exact reads_pure (.inr ⟨x, rfl, by rwa [List.append_nil]⟩)
  refine value.bind ?_
  rintro _ t read (⟨rfl, rfl⟩ | ⟨x, rfl, e, derived, held⟩)
  · refine reads_eat_bind (by decide) fun semicolon t isSemicolon => ?_
    exact reads_alloc fun node shown => ⟨_, .ret kind isSemicolon, .ret shown⟩
  · refine reads_eat_bind (by decide) fun semicolon t isSemicolon => ?_
    refine reads_alloc fun node shown => ⟨_, ?_, .retValue shown held⟩
    exact .retValue kind derived isSemicolon

theorem reads_statements (h : inner.Sound last) :
    (statements inner).Reads last s fun read ids => ∃ stmts, Grammar.Many Grammar.Stmt read stmts ∧
      List.Forall₂ (last.ast.HoldsStmt id) ids.toList stmts := by
  refine Reads.foldWhile _ ⟨[], .nil, .nil⟩ ?_
  rintro _ ids t read _ ⟨stmts, derived, held⟩
  refine (reads_recover (h.statement t)).bind ?_
  rintro node t us ⟨stmt, derived', held'⟩
  refine reads_pure ⟨stmts ++ [stmt], ?_, ?_⟩
  · rw [List.append_nil]
    exact derived.snoc derived'
  · rw [Array.toList_push]
    exact List.rel_append held (.cons held' .nil)

theorem reads_block (h : inner.Sound last) :
    (block inner).Reads last s (Stands Grammar.Block (last.ast.HoldsBlock id)) := by
  apply Attempt.reads_look_bind
  split
  · rename_i kind
    refine Attempt.reads_advance_bind (ahead_ne_nil_of_kind kind (by decide)) ?_
    refine Attempt.Reads.bind (Attempt.reads_lift (reads_statements h)) ?_
    rintro body t read ⟨stmts, derived, held⟩
    refine reads_lift_eat_bind (by decide) fun closing t kind' => ?_
    refine Attempt.reads_lift (reads_alloc fun node shown => ⟨_, ?_, .mk shown held⟩)
    exact .mk kind derived kind'
  · exact Attempt.reads_throw _

theorem reads_blockOrInvalid (h : inner.Sound last) :
    (blockOrInvalid inner).Reads last s (Stands Grammar.Block (last.ast.HoldsBlock id)) :=
  reads_recover (reads_block h)

theorem reads_nextLink (h : inner.Sound last) {branch : Branch} (guarded : branch ≠ .elseBranch) :
    (nextLink inner branch).Reads last s (Stands Grammar.Link (last.ast.HoldsLink id)) := by
  apply Attempt.reads_look_bind
  split
  · contradiction
  · rename_i kind
    exact (h.conditional s .elifBranch kind).bind fun link t read clause =>
      Attempt.reads_pure (by rwa [List.append_nil])
  · rename_i kind
    exact (h.conditional s .elseBranch kind).bind fun link t read clause =>
      Attempt.reads_pure (by rwa [List.append_nil])
  · exact Attempt.reads_pure ⟨_, .done, .done⟩

/-- A link with a condition, whatever is made of it. -/
theorem reads_guarded (h : inner.Sound last) {branch : Branch} (guarded : branch ≠ .elseBranch)
    (some : s.ahead ≠ []) {R : List Token → NodeId → Prop}
    (close : ∀ {node c b n ts condition us body vs next},
      last.ast.Shows id node (.conditional branch (.some c) b n) s.current →
      Grammar.Chain ts condition → last.ast.HoldsExpr id c condition →
      Grammar.Block us body → last.ast.HoldsBlock id b body →
      Grammar.Link vs next → last.ast.HoldsLink id n next →
      R (s.current :: ts ++ us ++ vs) node) :
    (conditional inner branch).Reads last s R := by
  refine Attempt.reads_advance_bind some ?_
  have condition : (condition inner branch).Reads last s.advance fun read condition =>
      ∃ c, condition = .some c ∧ Stands Grammar.Chain (last.ast.HoldsExpr id) read c := by
    have guard := Expression.reads_parseOrInvalid (s := s.advance) h.exprs
    cases branch with
    | elseBranch => contradiction
    | ifBranch => exact guard.bind fun c t read stands => reads_pure ⟨c, rfl, by simpa using stands⟩
    | elifBranch =>
      exact guard.bind fun c t read stands => reads_pure ⟨c, rfl, by simpa using stands⟩
  refine Attempt.Reads.bind (Attempt.reads_lift condition) ?_
  rintro _ t ts ⟨c, rfl, e, derived, held⟩
  refine Attempt.Reads.bind (Attempt.reads_lift (reads_blockOrInvalid h)) ?_
  rintro b t us ⟨body, derivedBody, heldBody⟩
  refine (reads_nextLink h guarded).bind ?_
  rintro n t vs ⟨next, derivedNext, heldNext⟩
  refine Attempt.reads_lift (reads_alloc fun node shown => ?_)
  simpa using close shown derived held derivedBody heldBody derivedNext heldNext

theorem reads_conditional (h : inner.Sound last) (branch : Branch)
    (kind : s.current.kind = keyword branch) :
    (conditional inner branch).Reads last s (Clause last branch) := by
  have some : s.ahead ≠ [] := ahead_ne_nil_of_kind kind (by cases branch <;> decide)
  cases branch with
  | ifBranch =>
    refine reads_guarded h (by decide) some ?_
    intro node c b n ts condition us body vs next shown chain held block heldBlock link heldLink
    exact ⟨_, .ifElse kind chain block link, .ifElse shown held heldBlock heldLink⟩
  | elifBranch =>
    refine reads_guarded h (by decide) some ?_
    intro node c b n ts condition us body vs next shown chain held block heldBlock link heldLink
    exact ⟨_, .elifLink kind chain block link, .elifLink shown held heldBlock heldLink⟩
  | elseBranch =>
    refine Attempt.reads_advance_bind some ?_
    refine Attempt.Reads.bind (R := fun read c => read = [] ∧ c = none)
      (Attempt.reads_lift (reads_pure ⟨rfl, rfl⟩)) ?_
    rintro _ t _ ⟨rfl, rfl⟩
    refine Attempt.Reads.bind (Attempt.reads_lift (reads_blockOrInvalid h)) ?_
    rintro b t us ⟨body, block, heldBlock⟩
    refine Attempt.Reads.bind (R := fun read n => read = [] ∧ n = none) (Attempt.reads_pure ⟨rfl, rfl⟩) ?_
    rintro _ t _ ⟨rfl, rfl⟩
    refine Attempt.reads_lift (reads_alloc fun node shown => ⟨_, ?_, .elseLink shown heldBlock⟩)
    simpa using Grammar.Link.elseLink kind block

theorem reads_whileLoop (h : inner.Sound last) (kind : s.current.kind = .kwWhile) :
    (whileLoop inner).Reads last s (Stands Grammar.Stmt (last.ast.HoldsStmt id)) := by
  refine reads_advance_bind (ahead_ne_nil_of_kind kind (by decide)) ?_
  refine (Expression.reads_parseOrInvalid h.exprs).bind ?_
  rintro c t ts ⟨condition, chain, held⟩
  refine (reads_blockOrInvalid h).bind ?_
  rintro b t us ⟨body, block, heldBlock⟩
  refine reads_alloc fun node shown => ⟨_, ?_, .whileLoop shown held heldBlock⟩
  simpa using Grammar.Stmt.whileLoop kind chain block

theorem reads_doWhileLoop (h : inner.Sound last) (kind : s.current.kind = .kwDo) :
    (doWhileLoop inner).Reads last s (Stands Grammar.Stmt (last.ast.HoldsStmt id)) := by
  refine reads_advance_bind (ahead_ne_nil_of_kind kind (by decide)) ?_
  refine (reads_blockOrInvalid h).bind ?_
  rintro b t ts ⟨body, block, heldBlock⟩
  refine reads_eat_bind (by decide) fun keyword t isWhile => ?_
  refine (Expression.reads_parseOrInvalid h.exprs).bind ?_
  rintro c t us ⟨condition, chain, held⟩
  refine reads_eat_bind (by decide) fun semicolon t isSemicolon => ?_
  refine reads_alloc fun node shown => ⟨_, ?_, .doWhileLoop shown heldBlock held⟩
  simpa using Grammar.Stmt.doWhileLoop kind block isWhile chain isSemicolon

theorem reads_terminated (h : inner.Sound last) :
    (terminated inner).Reads last s (Stands Grammar.Stmt (last.ast.HoldsStmt id)) := by
  refine (reads_expression h).bind ?_
  rintro node t _ ⟨start, ts, e, x, rfl, chain, shown, held⟩
  refine reads_eat_bind (by decide) fun semicolon t isSemicolon => ?_
  exact reads_pure ⟨_, .expr chain isSemicolon, .expr shown held⟩

theorem reads_straight (h : inner.Sound last) :
    (straight inner).Reads last s (Stands Grammar.Stmt (last.ast.HoldsStmt id)) := by
  apply Attempt.reads_look_bind
  split
  · refine Attempt.reads_lift ((reads_varDecl h (TokenKind.eq_of_form? ‹_› rfl)).imp ?_)
    rintro read node ⟨decl, derived, held⟩
    exact ⟨_, .varDecl derived, .varDecl held⟩
  · exact Attempt.reads_lift (reads_returnStmt h (TokenKind.eq_of_form? ‹_› rfl))
  · exact reads_conditional h .ifBranch (TokenKind.eq_of_form? ‹_› rfl)
  · exact Attempt.reads_look_bind (Attempt.reads_bind_throw _ _)
  · exact Attempt.reads_lift (reads_whileLoop h (TokenKind.eq_of_form? ‹_› rfl))
  · exact Attempt.reads_lift (reads_doWhileLoop h (TokenKind.eq_of_form? ‹_› rfl))
  · refine (reads_block h).imp ?_
    rintro read node ⟨body, derived, held⟩
    exact ⟨_, .block derived, .block held⟩
  · exact Attempt.reads_lift (reads_terminated h)

theorem reads_forOpening (kind : s.current.kind = .kwFor) :
    forOpening.Reads last s fun read start => start.kind = .kwFor ∧
      ∃ opening : Token, opening.kind = .openParen ∧ read = [start, opening] := by
  refine reads_advance_bind (ahead_ne_nil_of_kind kind (by decide)) ?_
  refine reads_eat_bind (by decide) fun opening t isOpening => ?_
  exact reads_pure ⟨kind, opening, isOpening, rfl⟩

theorem reads_forClosing (h : inner.Sound last) {start opening : Token} {init : NodeId}
    {ts : List Token} (kind : start.kind = .kwFor) (isOpening : opening.kind = .openParen)
    (stands : Stands Grammar.Stmt (last.ast.HoldsStmt id) ts init) :
    (forClosing inner start init).Reads last s fun read =>
      Stands Grammar.Stmt (last.ast.HoldsStmt id) (start :: opening :: ts ++ read) := by
  obtain ⟨stmt, derivedInit, heldInit⟩ := stands
  refine (Expression.reads_parseOrInvalid h.exprs).bind ?_
  rintro c t us ⟨condition, chain, held⟩
  refine reads_eat_bind (by decide) fun semicolon t isSemicolon => ?_
  refine (reads_expression h).bind ?_
  rintro a t _ ⟨token, vs, action, x, rfl, chain', shown', held'⟩
  refine reads_eat_bind (by decide) fun closing t isClosing => ?_
  refine (reads_blockOrInvalid h).bind ?_
  rintro b t ws ⟨body, block, heldBlock⟩
  refine reads_alloc fun node shown => ⟨_, ?_, .forLoop shown heldInit held shown' held' heldBlock⟩
  simpa using Grammar.Stmt.forLoop kind isOpening derivedInit chain isSemicolon chain' isClosing block

theorem reads_parse_of (h : inner.Sound last)
    (loops : s.current.kind.form? = some .forLoop →
      (forLoop inner).Reads last s (Stands Grammar.Stmt (last.ast.HoldsStmt id))) :
    (parse inner).Reads last s (Stands Grammar.Stmt (last.ast.HoldsStmt id)) := by
  apply Attempt.reads_look_bind
  split
  · exact Attempt.reads_lift (loops ‹_›)
  · exact reads_straight h

/-- A `for` in the initializer of a `for` stands behind a token more. -/
theorem reads_forLoop (h : inner.Sound last) (s : State)
    (isFor : s.current.kind.form? = some .forLoop) :
    (forLoop inner).Reads last s (Stands Grammar.Stmt (last.ast.HoldsStmt id)) := by
  rw [forLoop_eq]
  refine (reads_forOpening (TokenKind.eq_of_form? isFor rfl)).bind_run ?_
  rintro _ ⟨kind, opening, isOpening, rfl⟩
  refine (reads_recover (reads_parse_of h ?_)).bind ?_
  · exact fun isFor => reads_forLoop h (forOpening.run s).2 isFor
  · intro init t ts stands
    exact (reads_forClosing h kind isOpening stands).imp fun read node stands => by simpa using stands
termination_by s.ahead.length
decreasing_by exact moves_forOpening isFor

theorem reads_parse (h : inner.Sound last) :
    (parse inner).Reads last s (Stands Grammar.Stmt (last.ast.HoldsStmt id)) :=
  reads_parse_of h (reads_forLoop h s)

theorem sound_refusing : Inner.refusing.Sound last where
  exprs := Expression.sound_refusing
  statement _ := reads_tooDeep
  conditional _ _ _ := reads_tooDeep

theorem sound_around (h : inner.Sound last) : (Inner.around inner).Sound last where
  exprs := Expression.sound_around h.exprs
  statement _ := reads_parse h
  conditional _ branch kind := reads_conditional h branch kind

/-- At every depth the parsers of a statement read what the grammar asks of them. -/
theorem sound_ofRoom : ∀ room : Nat, (Inner.ofRoom room).Sound last
  | 0 => sound_refusing
  | room + 1 => sound_around (sound_ofRoom room)

end Statement
namespace Item

open Statement (Inner)

variable {inner : Inner}

theorem reads_parameter :
    parameter.Reads last s (Stands Grammar.Param (last.ast.HoldsParam id)) := by
  refine reads_eat_bind (by decide) fun name t isName => ?_
  refine reads_eat_bind (by decide) fun colon t isColon => ?_
  refine DataType.reads_token.settle ?_ ?_
  · rintro type t _ ⟨rfl, kind⟩
    exact reads_alloc fun node shown =>
      ⟨⟨name, name.text, type, type.text⟩, .mk isName isColon (.mk kind), type, shown, rfl, rfl⟩
  · exact fun e t => reads_current_bind (reads_record_bind e)

theorem reads_procedure (h : inner.Sound last)
    (kind : s.current.kind = .kwProc ∨ s.current.kind = .kwDefine) :
    (procedure inner).Reads last s (Stands Grammar.Proc (last.ast.HoldsProc id)) := by
  have some : s.ahead ≠ [] := by
    rcases kind with kind | kind <;> exact ahead_ne_nil_of_kind kind (by decide)
  refine reads_advance_bind some ?_
  refine reads_eat_bind (by decide) fun name t isName => ?_
  refine reads_eat_bind (by decide) fun opening t isOpening => ?_
  refine (reads_commaList fun t => reads_parameter).bind ?_
  rintro params t ts ⟨xs, list, heldParams⟩
  refine reads_eat_bind (by decide) fun closing t isClosing => ?_
  refine reads_eat_bind (by decide) fun colon t isColon => ?_
  refine DataType.reads_parseOrInvalid.bind ?_
  rintro type t us ⟨x, derivedType, heldType⟩
  refine (Statement.reads_blockOrInvalid h).bind ?_
  rintro b t vs ⟨body, block, heldBlock⟩
  refine reads_alloc fun node shown => ⟨⟨s.current, name.text, xs, x, body⟩, ?_,
    params, type, b, shown, heldParams, heldType, heldBlock⟩
  simpa using Grammar.Proc.mk kind isName isOpening list isClosing isColon derivedType block

theorem reads_field (kind : s.current.kind = .identifier) :
    field.Reads last s (Stands Grammar.StructField (last.ast.HoldsField id)) := by
  refine reads_advance_bind (ahead_ne_nil_of_kind kind (by decide)) ?_
  refine reads_eat_bind (by decide) fun colons t isColons => ?_
  refine DataType.reads_parseOrInvalid.bind ?_
  rintro type t ts ⟨x, derivedType, heldType⟩
  refine reads_eat_bind (by decide) fun semicolon t isSemicolon => ?_
  refine reads_alloc fun node shown =>
    ⟨⟨s.current, s.current.text, x⟩, ?_, type, shown, heldType⟩
  simpa using Grammar.StructField.mk kind isColons derivedType isSemicolon

/-- The members of a struct so far. -/
def Members.Stand (last : State) (read : List Token) (members : Members) : Prop :=
  ∃ fields methods, Grammar.Members read fields methods ∧
    List.Forall₂ (last.ast.HoldsField id) members.fields.toList fields ∧
    List.Forall₂ (last.ast.HoldsProc id) members.methods.toList methods

theorem reads_memberRound (h : inner.Sound last) {members : Members} {read : List Token}
    (stand : members.Stand last read) :
    (memberRound inner s.current members).Reads last s fun us members =>
      members.Stand last (read ++ us) := by
  obtain ⟨fields, methods, derived, heldFields, heldMethods⟩ := stand
  have method (kind : s.current.kind = .kwProc ∨ s.current.kind = .kwDefine) :
      (procedure inner >>= fun id =>
        pure { members with methods := members.methods.push id }).Reads last s
          fun us members => members.Stand last (read ++ us) := by
    refine (reads_procedure h kind).bind ?_
    rintro node t us ⟨x, derived', held⟩
    refine reads_pure ⟨fields, methods ++ [x], ?_, heldFields, ?_⟩
    · rw [List.append_nil]
      exact derived.snoc_method derived'
    · rw [Array.toList_push]
      exact List.rel_append heldMethods (.cons held .nil)
  unfold memberRound
  split
  · rename_i kind
    refine (reads_field kind).bind ?_
    rintro node t us ⟨x, derived', held⟩
    refine reads_pure ⟨fields ++ [x], methods, ?_, ?_, heldMethods⟩
    · rw [List.append_nil]
      exact derived.snoc_field derived'
    · rw [Array.toList_push]
      exact List.rel_append heldFields (.cons held .nil)
  · exact method (.inl ‹_›)
  · exact method (.inr ‹_›)
  · exact reads_record_bind _

theorem reads_members (h : inner.Sound last) :
    (members inner).Reads last s fun read members => members.Stand last read := by
  refine Reads.foldWhile _ ⟨[], [], .nil, .nil, .nil⟩ ?_
  intro token members t read given stand
  obtain rfl : t.current = token := by
    unfold Statement.beforeBoundary? at given
    split at given <;> simp_all
  exact reads_memberRound h stand

theorem reads_struct (h : inner.Sound last) (kind : s.current.kind = .kwStruct) :
    (struct inner).Reads last s (Stands Grammar.Item (last.ast.HoldsItem id)) := by
  refine reads_advance_bind (ahead_ne_nil_of_kind kind (by decide)) ?_
  refine reads_eat_bind (by decide) fun name t isName => ?_
  refine reads_eat_bind (by decide) fun opening t isOpening => ?_
  refine (reads_members h).bind ?_
  rintro members t ts ⟨fields, methods, derived, heldFields, heldMethods⟩
  refine reads_eat_bind (by decide) fun closing t isClosing => ?_
  refine reads_alloc fun node shown => ⟨_, ?_, .struct shown heldFields heldMethods⟩
  simpa using Grammar.Item.struct kind isName isOpening derived isClosing

theorem reads_ofToken? (h : inner.Sound last) {item : Parser NodeId}
    (starts : ofToken? inner s.current = some item) :
    item.Reads last s (Stands Grammar.Item (last.ast.HoldsItem id)) := by
  have procedure (kind : s.current.kind = .kwProc ∨ s.current.kind = .kwDefine) :
      (procedure inner).Reads last s (Stands Grammar.Item (last.ast.HoldsItem id)) := by
    refine (reads_procedure h kind).imp ?_
    rintro read node ⟨x, derived, held⟩
    exact ⟨_, .proc derived, .proc held⟩
  unfold ofToken? at starts
  split at starts <;> cases starts
  · exact procedure (.inl ‹_›)
  · exact procedure (.inr ‹_›)
  · exact reads_struct h ‹_›
  · refine (Statement.reads_varDecl h ‹_›).imp ?_
    rintro read node ⟨x, derived, held⟩
    exact ⟨_, .varDecl derived, .varDecl held⟩

/-- From `s` to `t` whole items are read, unless something is recorded, and the roots are their
nodes. -/
structure ItemsRead (s last : State) (skipping : Bool) (t : State) : Prop where
  reached : s.Reaches t
  opened : RootsOpen t
  passed : s.Passes t last fun read => skipping = false ∧
    Stands Grammar.Program (List.Forall₂ (last.ast.HoldsItem id)) read t.ast.roots.toList

theorem itemsRead_programRound (builds : inner.Builds) (h : inner.Sound last) {t : State}
    {skipping : Bool} (so : ItemsRead s last skipping t) :
    (programRound inner t.current skipping).Ensures t (ItemsRead s last) := by
  have reached := (programRound inner t.current skipping).reaches t
  refine ⟨so.reached.trans reached, open_programRound builds t.current skipping so.opened, ?_⟩
  refine so.passed.trans so.reached reached ?_
  rintro read ⟨rfl, items, derived, held⟩
  unfold programRound
  split
  · rename_i item starts
    intro end_reached clean
    obtain ⟨us, split, x, derived', held'⟩ :=
      reads_ofToken? h starts (.trans (.pushRoot _ .refl) end_reached) clean
    refine ⟨us, split, rfl, items ++ [x], derived.snoc derived', ?_⟩
    show List.Forall₂ _ ((item.run t).2.ast.roots.push (item.run t).1).toList (items ++ [x])
    rw [roots_ofToken? builds starts so.opened, Array.toList_push]
    exact List.rel_append held (.cons held' .nil)
  · intro end_reached clean
    exact absurd clean (State.record_errors_ne (.trans (.advance .refl) end_reached))

theorem itemsRead_program (builds : inner.Builds) (h : inner.Sound last)
    (start : ItemsRead s last false s) :
    (program inner).Ensures s fun _ t =>
      t.current.kind = .eof ∧ ∃ skipping, ItemsRead s last skipping t := by
  refine Ensures.bind (Ensures.foldWhile (ItemsRead s last) start ?_) ?_
  · intro token skipping t given so
    obtain rfl : t.current = token := by
      unfold beforeEnd? at given
      split at given <;> simp_all
    exact itemsRead_programRound builds h so
  · rintro skipping t _ ⟨so, ended⟩
    refine ⟨?_, skipping, so⟩
    show t.current.kind = .eof
    unfold beforeEnd? at ended
    split at ended
    · assumption
    · cases ended

end Item

namespace Source

/-- **What is parsed without a diagnostic is in the grammar**: the tokens of the source, but for
the one that ends the file, are those of a list of items, and the roots are the nodes of these
items, in order. -/
theorem parse_derivable (source : Source) (clean : source.parse.errors = #[]) :
    ∃ tokens line items, source.tokenize.1 = tokens ++ [Token.endOfFile line] ∧
      Grammar.Program tokens items ∧
      List.Forall₂ (source.parse.ast.HoldsItem id) source.parse.ast.roots.toList items := by
  let start := State.start maxNesting source
  let parser := Item.program (Statement.Inner.ofRoom maxNesting)
  let last := (parser.run start).2
  have reached : start.Reaches last := parser.reaches start
  have same : last.errors = start.errors := by
    have none : last.errors = #[] := clean
    have shorter := reached.errors_extend
    rw [none] at shorter ⊢
    exact (Array.toList_inj.1 (List.prefix_nil.1 shorter)).symm
  have begun : Item.ItemsRead start last false start :=
    ⟨.refl, Item.rootsOpen_start maxNesting source, fun _ _ => ⟨[], rfl, rfl, [], .nil, .nil⟩⟩
  obtain ⟨ended, skipping, read⟩ := Item.itemsRead_program
    (Statement.builds_ofRoom maxNesting) (Statement.sound_ofRoom maxNesting) begun
  obtain ⟨tokens, split, -, items, derived, held⟩ := read.passed .refl same
  refine ⟨tokens, source.scan.endLine, items, ?_, derived, held⟩
  have rest : State.tokens last = [] := by
    rw [State.tokens, ahead_eq_nil_of_reaches reached ended]
    rfl
  have all : start.tokens = tokens := by
    rw [split, rest, List.append_nil]
  rw [← all]
  rfl

/-- A declaration whose value is a group, and a procedure with a trailing comma and a chain. -/
theorem parse_derivable_two_items :
    let source : Source := ⟨"two.viper", "let x: int = a + (b * 2 - c[i]);
      proc f(n: int,): void \x7b if !n \x7b return f(n, 1); \x7d elif n.m \x7b return; \x7d \x7d"⟩
    source.parse.errors = #[] ∧
      ∃ tokens line items, source.tokenize.1 = tokens ++ [Token.endOfFile line] ∧
        Grammar.Program tokens items ∧
        List.Forall₂ (source.parse.ast.HoldsItem id) source.parse.ast.roots.toList items := by
  intro source
  have clean : source.parse.errors = #[] := by decide +kernel
  exact ⟨clean, parse_derivable source clean⟩

end Source
end Viper
