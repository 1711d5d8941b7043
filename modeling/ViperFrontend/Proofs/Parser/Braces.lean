/-
# Recovery leaves the braces of the blocks around alone

A block ends at its `}`, so what is parsed inside of it must not pass that `}` in search of a token that
it misses. It does not: of the tokens that a statement, a block, an expression or a data type passes, no
prefix has more `}` than `{` (`BraceSafe`), however broken the text is, and whether the parse succeeds or
fails. Tokens that are passed because they are out of place may be `{`, but never `}`; and what opens a
block itself passes one `}` at most.

The exception is a construct for which there is no room: it is skipped up to where its brackets balance,
of whatever kind they are. A state keeps its braces up to another (`State.KeepsBraces`) unless something
is reported as nested too deeply between them. For a parser that is to keep its braces wherever it
starts it is enough that it never passes a token without having looked at it.

Key definitions: `BraceSafe`, `Parser.State.KeepsBraces`, `Parser.KeepsBraces`, `Attempt.KeepsBraces`.
Key theorems: `BraceSafe.append`, `BraceSafe.block`, `Statement.braces_ofRoom`,
`Rule.passes_no_brace_around`.
-/
import ViperFrontend.Proofs.Parser.Closing
import ViperFrontend.Proofs.Parser.Nesting
import ViperFrontend.Proofs.Parser.Reading
import ViperFrontend.Proofs.Parser.Session

namespace Viper

open Viper.Parser

theorem TokenKind.ne_closeCurly_of_not_boundary {kind : TokenKind} (h : kind.isBoundary = false) :
    kind ≠ .closeCurly := by
  rintro rfl
  cases h

/-! ### Braces in a list of tokens -/

/-- No prefix has more `}` than `{`. -/
def BraceSafe (read : List Token) : Prop :=
  ∀ before, before <+: read →
    before.countP (·.kind = .closeCurly) ≤ before.countP (·.kind = .openCurly)

namespace BraceSafe

variable {first second read : List Token} {token last : Token}

theorem nil : BraceSafe [] := by
  intro before isPrefix
  rw [List.prefix_nil.1 isPrefix]
  exact Nat.le_refl _

theorem append (h : BraceSafe first) (k : BraceSafe second) : BraceSafe (first ++ second) := by
  intro before isPrefix
  rcases List.prefix_or_prefix_of_prefix isPrefix (List.prefix_append first second) with
    inFirst | ⟨more, rfl⟩
  · exact h before inFirst
  · rw [List.countP_append, List.countP_append]
    have inSecond : more <+: second := (List.prefix_append_right_inj first).1 isPrefix
    exact Nat.add_le_add (h first (List.prefix_refl _)) (k more inSecond)

theorem singleton (other : token.kind ≠ .closeCurly) : BraceSafe [token] := by
  intro before isPrefix
  have none : before.countP (·.kind = .closeCurly) = 0 := by
    rw [List.countP_eq_zero]
    intro t mem
    rw [List.mem_singleton.1 (isPrefix.subset mem)]
    simpa using other
  exact none ▸ Nat.zero_le _

/-- **What is between braces that belong together** keeps the balance with them. -/
theorem block (opens : token.kind = .openCurly) (h : BraceSafe read)
    (closes : last.kind = .closeCurly) : BraceSafe (token :: read ++ [last]) := by
  have other : token.kind ≠ .closeCurly := by
    rw [opens]
    decide
  intro before isPrefix
  rcases List.prefix_concat_iff.1 isPrefix with rfl | inside
  · have balance := h read (List.prefix_refl _)
    simp only [List.cons_append, List.countP_cons, List.countP_append, List.countP_nil, opens, closes]
    simpa using balance
  · exact (singleton other).append h before inside

end BraceSafe

namespace Parser

/-! ### Braces between two states -/

namespace State

variable {s t u : State} {n m : Nat}

theorem Reaches.shallowFrom (reached : s.Reaches t) (shallow : t.ShallowFrom n) :
    s.ShallowFrom n :=
  fun d mem => shallow d ((List.IsPrefix.drop reached.errors_extend n).subset mem)

theorem ShallowFrom.mono (shallow : s.ShallowFrom n) (le : n ≤ m) : s.ShallowFrom m :=
  fun d mem => shallow d ((List.drop_sublist_drop_left _ le).subset mem)

/-- The tokens between two states are safe, unless something is reported as nested too deeply. -/
structure KeepsBraces (s t : State) : Prop where
  reaches : s.Reaches t
  passes : t.ShallowFrom s.errors.size → ∃ read, s.tokens = read ++ t.tokens ∧ BraceSafe read

theorem KeepsBraces.of_ahead_eq (reached : s.Reaches t) (same : t.ahead = s.ahead) :
    s.KeepsBraces t :=
  ⟨reached, fun _ => ⟨[], by rw [tokens, tokens, same, List.nil_append], .nil⟩⟩

theorem KeepsBraces.refl (s : State) : s.KeepsBraces s := .of_ahead_eq .refl rfl

theorem KeepsBraces.trans (h : s.KeepsBraces t) (k : t.KeepsBraces u) : s.KeepsBraces u := by
  refine ⟨h.reaches.trans k.reaches, fun shallow => ?_⟩
  have recorded : s.errors.size ≤ t.errors.size := h.reaches.errors_extend.length_le
  obtain ⟨read, split, safe⟩ := h.passes (k.reaches.shallowFrom shallow)
  obtain ⟨read', split', safe'⟩ := k.passes (shallow.mono recorded)
  exact ⟨read ++ read', by rw [split, split', List.append_assoc], safe.append safe'⟩

theorem KeepsBraces.advance (other : s.current.kind ≠ .closeCurly) : s.KeepsBraces s.advance := by
  by_cases none : s.ahead = []
  · exact .of_ahead_eq (.advance .refl) (by rw [ahead_advance, none, List.tail_nil])
  · exact ⟨.advance .refl, fun _ => ⟨[s.current], tokens_eq_cons none, .singleton other⟩⟩

/-- From the `{` of a block to the token behind its `}`. -/
theorem KeepsBraces.block (opens : s.current.kind = .openCurly) (h : s.advance.KeepsBraces t)
    (closes : t.current.kind = .closeCurly) : s.KeepsBraces t.advance := by
  have first : s.Reaches s.advance := .advance .refl
  have last : t.Reaches t.advance := .advance .refl
  have recorded : s.errors.size ≤ s.advance.errors.size := first.errors_extend.length_le
  refine ⟨(first.trans h.reaches).trans last, fun shallow => ?_⟩
  obtain ⟨read, split, safe⟩ := h.passes ((last.shallowFrom shallow).mono recorded)
  refine ⟨s.current :: read ++ [t.current], ?_, safe.block opens closes⟩
  rw [tokens_eq_cons (ahead_ne_nil_of_kind opens (by decide)), split,
    tokens_eq_cons (ahead_ne_nil_of_kind closes (by decide))]
  simp

/-- What is refused for lack of room need not keep its braces, for that is reported. -/
theorem KeepsBraces.of_tooDeep {e : SyntaxError} (reached : s.Reaches t)
    (deep : (Fault.syntactic e.fault).isTooDeep = true) : s.KeepsBraces (t.record e) := by
  refine ⟨reached.record e, fun shallow => ?_⟩
  have recorded : s.errors.size ≤ t.errors.toList.length := reached.errors_extend.length_le
  have reported := shallow ⟨.syntactic e.fault, e.line, t.file⟩
    (by simp [State.record, List.drop_append_of_le_length recorded])
  rw [deep] at reported
  cases reported

end State

variable {α β σ κ : Type} {s : State}

/-- From `s` the parser keeps its braces. -/
def KeepsBraces (p : Parser α) (s : State) : Prop :=
  p.Ensures s fun _ t => s.KeepsBraces t

theorem KeepsBraces.bind_run {p : Parser α} {f : α → Parser β} (h : p.KeepsBraces s)
    (next : (f (p.run s).1).KeepsBraces (p.run s).2) : (p >>= f).KeepsBraces s :=
  State.KeepsBraces.trans h next

theorem KeepsBraces.bind {p : Parser α} {f : α → Parser β} (h : p.KeepsBraces s)
    (next : ∀ a t, (f a).KeepsBraces t) : (p >>= f).KeepsBraces s :=
  h.bind_run (next _ _)

theorem braces_pure {a : α} : (pure a : Parser α).KeepsBraces s := .refl s

theorem braces_record (e : SyntaxError) : (record e).KeepsBraces s :=
  .of_ahead_eq (.record e .refl) rfl

theorem braces_alloc (construct : Construct) (token : Token) :
    (alloc construct token).KeepsBraces s :=
  .of_ahead_eq (.alloc construct token .refl) rfl

theorem braces_advance (other : s.current.kind ≠ .closeCurly) : advance.KeepsBraces s :=
  .advance other

theorem braces_look_bind {g : State → κ} {f : κ → Parser β} (next : (f (g s)).KeepsBraces s) :
    (look g >>= f).KeepsBraces s := next

theorem KeepsBraces.loop {round : σ → Parser (Round σ β)} {progress : Progresses round}
    (step : ∀ x s, (round x).KeepsBraces s) (x : σ) : (loop round progress x).KeepsBraces s := by
  refine loop_rule (motive := fun _ s _ t => s.KeepsBraces t) (fun x s => ?_) x s
  have kept := step x s
  unfold KeepsBraces Ensures at kept
  unfold Ensures
  rcases run : (round x).run s with ⟨r, t⟩
  rw [run] at kept
  cases r with
  | done b => exact kept
  | again y => exact fun _ _ _ rest => kept.trans rest

theorem KeepsBraces.foldWhile {test : State → Option κ} {body : κ → σ → Parser σ}
    {moves : ∀ k x s, test s = some k → (body k x).Moves s}
    (step : ∀ k x s, test s = some k → (body k x).KeepsBraces s) (x : σ) :
    (foldWhile test body moves x).KeepsBraces s := by
  refine (Ensures.foldWhile (fun _ t => s.KeepsBraces t) (.refl s) ?_).imp fun _ _ _ both => both.1
  exact fun k x t given kept => kept.trans (step k x t given)

end Parser

namespace Attempt

variable {α β κ : Type} {s : State}

/-- The same for an attempt; if it fails, its error counts as recorded. -/
def KeepsBraces (p : Attempt α) (s : State) : Prop :=
  p.Ensures s (fun _ t => s.KeepsBraces t) fun e t => s.KeepsBraces (t.record e)

/-- What keeps its braces does so from every state before that was kept up to where it starts. -/
theorem KeepsBraces.after {p : Attempt α} {t : State} (h : p.KeepsBraces t)
    (before : s.KeepsBraces t) :
    p.Ensures t (fun _ u => s.KeepsBraces u) fun e u => s.KeepsBraces (u.record e) :=
  Ensures.imp h (fun _ _ _ kept => before.trans kept) fun _ _ _ failed => before.trans failed

theorem KeepsBraces.bind {p : Attempt α} {f : α → Attempt β} (h : p.KeepsBraces s)
    (next : ∀ a t, (f a).KeepsBraces t) : (p >>= f).KeepsBraces s :=
  Ensures.bind h (fun a t _ kept => (next a t).after kept) fun _ _ _ failed => failed

theorem braces_lift {p : Parser α} (h : p.KeepsBraces s) :
    (liftM p : Attempt α).KeepsBraces s := h

theorem braces_pure {a : α} : (pure a : Attempt α).KeepsBraces s := .refl s

theorem braces_throw {e : SyntaxError} : (throw e : Attempt α).KeepsBraces s :=
  .of_ahead_eq (.record e .refl) rfl

theorem braces_look_bind {g : State → κ} {f : κ → Attempt β} (next : (f (g s)).KeepsBraces s) :
    (liftM (look g) >>= f : Attempt β).KeepsBraces s := next

/-- What follows a parser that cannot fail may use the state in which it ends. -/
theorem braces_lift_bind {p : Parser α} {f : α → Attempt β} (h : p.KeepsBraces s)
    (next : (f (p.run s).1).KeepsBraces (p.run s).2) :
    (liftM p >>= f : Attempt β).KeepsBraces s := by
  show (f (p.run s).1).Ensures (p.run s).2 (fun _ t => s.KeepsBraces t) fun e t => _
  exact next.after h

theorem KeepsBraces.foldWhile {test : State → Option κ} {body : κ → α → Attempt α}
    {moves : ∀ k x s, test s = some k → (body k x).run.Moves s}
    (step : ∀ k x s, test s = some k → (body k x).KeepsBraces s) (x : α) :
    (foldWhile test body moves x).KeepsBraces s := by
  refine Ensures.imp (Ensures.foldWhile (fun _ t => s.KeepsBraces t) (.refl s) ?_)
    (fun _ _ _ both => both.1) fun _ _ _ failed => failed
  exact fun k x t given kept => (step k x t given).after kept

end Attempt

namespace Parser

variable {s : State}

/-! ### Recovery -/

theorem braces_passOffending : passOffending.KeepsBraces s := by
  apply braces_look_bind
  split
  · exact braces_pure
  · rename_i inside
    have other := TokenKind.ne_closeCurly_of_not_boundary (Bool.eq_false_iff.2 inside)
    exact (braces_advance other).bind fun _ _ => braces_pure

/-- A token that is required is passed if it is there, so a `}` only where it is required. -/
theorem braces_expect {expected : TokenKind}
    (other : s.current.kind = .closeCurly → expected ≠ .closeCurly) :
    (expect expected).KeepsBraces s := by
  apply Attempt.braces_look_bind
  split
  · rename_i same
    refine Attempt.braces_lift (braces_advance fun closes => other closes ?_)
    exact same.symm.trans closes
  · exact (Attempt.braces_lift braces_passOffending).bind fun _ _ => Attempt.braces_throw

theorem braces_eat_of {expected : TokenKind}
    (other : s.current.kind = .closeCurly → expected ≠ .closeCurly) :
    (eat expected).KeepsBraces s := by
  have expected := braces_expect other
  unfold Attempt.KeepsBraces Attempt.Ensures at expected
  apply braces_look_bind
  refine Ensures.bind expected fun r t _ kept => ?_
  cases r with
  | ok found => exact kept
  | error e => exact kept

theorem braces_eat (expected : TokenKind) (other : expected ≠ .closeCurly) :
    (eat expected).KeepsBraces s :=
  braces_eat_of fun _ => other

theorem braces_recover {attempt : Attempt NodeId} (h : attempt.KeepsBraces s) :
    (recover attempt).KeepsBraces s := by
  unfold Attempt.KeepsBraces Attempt.Ensures at h
  refine Ensures.bind h fun r t _ kept => ?_
  cases r with
  | ok id => exact kept
  | error e => exact kept.trans (braces_alloc _ _)

theorem braces_tooDeep : tooDeep.KeepsBraces s := by
  obtain ⟨line, t, run, reached⟩ := run_tooDeep s
  unfold Attempt.KeepsBraces Attempt.Ensures Ensures
  rw [run]
  exact .of_tooDeep reached rfl

theorem braces_commaList {item : Parser NodeId} (h : ∀ s, item.KeepsBraces s) :
    (commaList item).KeepsBraces s := by
  refine KeepsBraces.loop (fun items s => ?_) #[]
  apply braces_look_bind
  split
  · exact braces_pure
  · refine (h s).bind fun id t => ?_
    apply braces_look_bind
    split
    · rename_i comma
      exact (braces_advance (by simp [comma])).bind fun _ _ => braces_pure
    · split
      · exact braces_pure
      · exact (braces_record _).bind fun _ _ => braces_pure

end Parser

namespace DataType

theorem braces_parse {s : State} : parse.KeepsBraces s := by
  have reads : token.KeepsBraces s := by
    apply Attempt.braces_look_bind
    split
    · exact Attempt.braces_lift (braces_advance (by simp [*]))
    · exact Attempt.braces_lift (braces_advance (by simp [*]))
    · exact Attempt.braces_throw
  exact reads.bind fun token t => Attempt.braces_lift (braces_alloc _ _)

theorem braces_parseOrInvalid {s : State} : parseOrInvalid.KeepsBraces s :=
  braces_recover braces_parse

end DataType

/-! ### Expressions -/

namespace Expression

/-- The parsers of a level keep their braces. Those that pass a token before they look at it are only
used where it is no `}`. -/
structure Inner.KeepsBraces (inner : Inner) : Prop where
  primary : ∀ s, inner.primary.KeepsBraces s
  binary : ∀ s left p, s.current.kind ≠ .closeCurly → (inner.binary left p).KeepsBraces s
  identifier : ∀ s, s.current.kind ≠ .closeCurly → inner.identifier.KeepsBraces s

variable {inner : Inner} {s : State}

theorem ne_closeCurly_of_operator {p : Precedence} (h : operator? s = some p) :
    s.current.kind ≠ .closeCurly :=
  TokenKind.ne_closeCurly_of_not_boundary (TokenKind.isBoundary_of_precedence? h)

theorem braces_binary (level : inner.KeepsBraces) (left : NodeId) (p : Precedence)
    (other : s.current.kind ≠ .closeCurly) : (binary inner left p).KeepsBraces s := by
  refine Attempt.braces_lift_bind (braces_advance other) ?_
  refine (level.primary _).bind fun operand t => ?_
  refine (Attempt.KeepsBraces.foldWhile ?_ operand).bind fun right t => ?_
  · intro next right t given
    exact level.binary t right next
      (ne_closeCurly_of_operator (Option.filter_eq_some_iff.1 given).1)
  · exact Attempt.braces_lift (braces_alloc _ _)

theorem braces_parse (level : inner.KeepsBraces) : (parse inner).KeepsBraces s := by
  refine (level.primary s).bind fun operand t => Attempt.KeepsBraces.foldWhile ?_ operand
  exact fun p left t given => braces_binary level left p (ne_closeCurly_of_operator given)

theorem braces_parseOrInvalid (level : inner.KeepsBraces) : (parseOrInvalid inner).KeepsBraces s :=
  braces_recover (braces_parse level)

theorem braces_prefixed (level : inner.KeepsBraces) (other : s.current.kind ≠ .closeCurly) :
    (prefixed inner).KeepsBraces s := by
  refine Attempt.braces_lift_bind (braces_advance other) ?_
  exact (level.primary _).bind fun operand t => Attempt.braces_lift (braces_alloc _ _)

/-- What is made of one token alone. -/
theorem braces_leaf {construct : Token → Construct} (other : s.current.kind ≠ .closeCurly) :
    (do let token ← advance; alloc (construct token) token : Parser NodeId).KeepsBraces s :=
  (braces_advance other).bind fun _ _ => braces_alloc _ _

theorem braces_numeral {α : Type} {read? : String → Option α} {make : α → Construct}
    (other : s.current.kind ≠ .closeCurly) : (numeral read? make).KeepsBraces s := by
  refine Attempt.braces_lift_bind (braces_advance other) ?_
  split
  · exact Attempt.braces_lift (braces_alloc _ _)
  · exact Attempt.braces_throw

theorem braces_grouping (level : inner.KeepsBraces) (other : s.current.kind ≠ .closeCurly) :
    (grouping inner).KeepsBraces s := by
  refine Attempt.braces_lift_bind (braces_advance other) ?_
  refine (braces_parse level).bind fun expr t => ?_
  exact (Attempt.braces_lift (braces_eat .closeParen (by decide))).bind fun _ _ => Attempt.braces_pure

theorem braces_call (level : inner.KeepsBraces) (other : s.current.kind ≠ .closeCurly)
    (opens : s.peek.kind = .openParen) : (call inner).KeepsBraces s := by
  refine (braces_advance other).bind_run ((braces_advance ?_).bind fun _ t => ?_)
  · rw [run_advance, State.current_advance, opens]
    decide
  · refine (braces_commaList fun t => braces_parseOrInvalid level).bind fun arguments t => ?_
    exact (braces_eat .closeParen (by decide)).bind fun _ _ => braces_alloc _ _

theorem braces_indexed (level : inner.KeepsBraces) (other : s.current.kind ≠ .closeCurly)
    (opens : s.peek.kind = .openBracket) : (indexed inner).KeepsBraces s := by
  refine (braces_advance other).bind_run ((braces_advance ?_).bind fun _ t => ?_)
  · rw [run_advance, State.current_advance, opens]
    decide
  · refine (braces_parseOrInvalid level).bind fun index t => ?_
    exact (braces_eat .closeBracket (by decide)).bind fun _ _ => braces_alloc _ _

theorem braces_member (level : inner.KeepsBraces) (other : s.current.kind ≠ .closeCurly)
    (dots : s.peek.kind = .dot) : (member inner).KeepsBraces s := by
  refine Attempt.braces_lift_bind (braces_advance other) ?_
  refine Attempt.braces_lift_bind (braces_alloc _ _) ?_
  refine Attempt.braces_lift_bind (braces_advance ?_) ?_
  · show s.advance.current.kind ≠ .closeCurly
    rw [State.current_advance, dots]
    decide
  · apply Attempt.braces_look_bind
    split
    · rename_i isName
      refine (level.identifier _ (isName.trans_ne (by decide))).bind fun field t => ?_
      exact Attempt.braces_lift (braces_alloc _ _)
    · exact Attempt.braces_throw

theorem braces_identifier (level : inner.KeepsBraces) (other : s.current.kind ≠ .closeCurly) :
    (identifier inner).KeepsBraces s := by
  apply Attempt.braces_look_bind
  split
  · exact Attempt.braces_lift (braces_call level other ‹_›)
  · exact Attempt.braces_lift (braces_indexed level other ‹_›)
  · exact braces_member level other ‹_›
  · exact Attempt.braces_lift (braces_leaf other)

/-- A `}` is no operand, and stays. -/
theorem braces_primary (level : inner.KeepsBraces) : (primary inner).KeepsBraces s := by
  have other : ∀ {kind : TokenKind}, s.current.kind = kind → kind ≠ .closeCurly →
      s.current.kind ≠ .closeCurly := fun same ne => same ▸ ne
  apply Attempt.braces_look_bind
  split
  · exact braces_prefixed level (other ‹_› (by decide))
  · exact braces_prefixed level (other ‹_› (by decide))
  · exact braces_prefixed level (other ‹_› (by decide))
  · exact Attempt.braces_lift (braces_leaf (other ‹_› (by decide)))
  · exact Attempt.braces_lift (braces_leaf (other ‹_› (by decide)))
  · exact braces_numeral (other ‹_› (by decide))
  · exact braces_numeral (other ‹_› (by decide))
  · exact Attempt.braces_lift (braces_leaf (other ‹_› (by decide)))
  · exact braces_identifier level (other ‹_› (by decide))
  · exact braces_grouping level (other ‹_› (by decide))
  · exact Attempt.braces_throw

theorem braces_refusing : Inner.refusing.KeepsBraces where
  primary _ := braces_tooDeep
  binary _ _ _ _ := braces_tooDeep
  identifier _ _ := braces_tooDeep

theorem braces_around (level : inner.KeepsBraces) : (Inner.around inner).KeepsBraces where
  primary _ := braces_primary level
  binary _ left p other := braces_binary level left p other
  identifier _ other := braces_identifier level other

end Expression

/-! ### Statements -/

namespace Statement

/-- The parsers of a level keep their braces; a link of a conditional chain is only parsed where its
keyword stands. -/
structure Inner.KeepsBraces (inner : Inner) : Prop where
  exprs : inner.exprs.KeepsBraces
  statement : ∀ s, inner.statement.KeepsBraces s
  conditional : ∀ s branch, s.current.kind ≠ .closeCurly → (inner.conditional branch).KeepsBraces s

variable {inner : Inner} {s : State}

theorem braces_expression (level : inner.KeepsBraces) : (expression inner).KeepsBraces s := by
  apply braces_look_bind
  exact (Expression.braces_parseOrInvalid level.exprs).bind fun _ _ => braces_alloc _ _

theorem braces_varDecl (level : inner.KeepsBraces) (other : s.current.kind ≠ .closeCurly) :
    (varDecl inner).KeepsBraces s := by
  refine (braces_advance other).bind fun start t => ?_
  refine (braces_eat .identifier (by decide)).bind fun name t => ?_
  refine (braces_eat .colon (by decide)).bind fun _ t => ?_
  refine DataType.braces_parseOrInvalid.bind fun type t => ?_
  refine (braces_eat .assignment (by decide)).bind fun _ t => ?_
  refine (Expression.braces_parseOrInvalid level.exprs).bind fun value t => ?_
  exact (braces_eat .semicolon (by decide)).bind fun _ _ => braces_alloc _ _

theorem braces_returnStmt (level : inner.KeepsBraces) (other : s.current.kind ≠ .closeCurly) :
    (returnStmt inner).KeepsBraces s := by
  have value : ∀ t, (returnValue inner).KeepsBraces t := by
    intro t
    apply braces_look_bind
    split
    · exact braces_pure
    · exact (Expression.braces_parseOrInvalid level.exprs).bind fun _ _ => braces_pure
  refine (braces_advance other).bind fun start t => (value t).bind fun value t => ?_
  exact (braces_eat .semicolon (by decide)).bind fun _ _ => braces_alloc _ _

theorem braces_statements (level : inner.KeepsBraces) : (statements inner).KeepsBraces s := by
  refine KeepsBraces.foldWhile (fun _ body t _ => ?_) #[]
  exact (braces_recover (level.statement t)).bind fun _ _ => braces_pure

/-- **A block passes its own `}`** and no other. -/
theorem braces_block (level : inner.KeepsBraces) : (block inner).KeepsBraces s := by
  apply Attempt.braces_look_bind
  split
  · rename_i opens
    have inside : s.advance.KeepsBraces ((statements inner).run s.advance).2 :=
      braces_statements level
    have closed : s.KeepsBraces
        ((eat .closeCurly).run ((statements inner).run s.advance).2).2 := by
      by_cases closes : ((statements inner).run s.advance).2.current.kind = .closeCurly
      · rw [eat_of_kind closes]
        exact .block opens inside closes
      · have opened : s.KeepsBraces s.advance := .advance (opens.trans_ne (by decide))
        exact (opened.trans inside).trans (braces_eat_of fun closing => absurd closing closes)
    exact closed.trans (braces_alloc _ _)
  · exact Attempt.braces_throw

theorem braces_blockOrInvalid (level : inner.KeepsBraces) : (blockOrInvalid inner).KeepsBraces s :=
  braces_recover (braces_block level)

theorem braces_condition (level : inner.KeepsBraces) (branch : Branch) :
    (condition inner branch).KeepsBraces s := by
  cases branch with
  | ifBranch | elifBranch =>
    exact (Expression.braces_parseOrInvalid level.exprs).bind fun _ _ => braces_pure
  | elseBranch => exact braces_pure

theorem braces_nextLink (level : inner.KeepsBraces) (branch : Branch) :
    (nextLink inner branch).KeepsBraces s := by
  apply Attempt.braces_look_bind
  split
  · exact Attempt.braces_pure
  · exact (level.conditional s .elifBranch (by simp [*])).bind fun _ _ => Attempt.braces_pure
  · exact (level.conditional s .elseBranch (by simp [*])).bind fun _ _ => Attempt.braces_pure
  · exact Attempt.braces_pure

theorem braces_conditional (level : inner.KeepsBraces) (branch : Branch)
    (other : s.current.kind ≠ .closeCurly) : (conditional inner branch).KeepsBraces s := by
  refine Attempt.braces_lift_bind (braces_advance other) ?_
  refine (Attempt.braces_lift (braces_condition level branch)).bind fun value t => ?_
  refine (Attempt.braces_lift (braces_blockOrInvalid level)).bind fun body t => ?_
  exact (braces_nextLink level branch).bind fun _ _ => Attempt.braces_lift (braces_alloc _ _)

theorem braces_dangling (level : inner.KeepsBraces) (other : s.current.kind ≠ .closeCurly) :
    (dangling inner).KeepsBraces s := by
  apply Attempt.braces_look_bind
  exact (braces_conditional level _ other).bind fun _ _ => Attempt.braces_throw

theorem braces_whileLoop (level : inner.KeepsBraces) (other : s.current.kind ≠ .closeCurly) :
    (whileLoop inner).KeepsBraces s := by
  refine (braces_advance other).bind fun start t => ?_
  refine (Expression.braces_parseOrInvalid level.exprs).bind fun condition t => ?_
  exact (braces_blockOrInvalid level).bind fun _ _ => braces_alloc _ _

theorem braces_doWhileLoop (level : inner.KeepsBraces) (other : s.current.kind ≠ .closeCurly) :
    (doWhileLoop inner).KeepsBraces s := by
  refine (braces_advance other).bind fun start t => ?_
  refine (braces_blockOrInvalid level).bind fun body t => ?_
  refine (braces_eat .kwWhile (by decide)).bind fun _ t => ?_
  refine (Expression.braces_parseOrInvalid level.exprs).bind fun condition t => ?_
  exact (braces_eat .semicolon (by decide)).bind fun _ _ => braces_alloc _ _

theorem braces_terminated (level : inner.KeepsBraces) : (terminated inner).KeepsBraces s :=
  (braces_expression level).bind fun _ _ =>
    (braces_eat .semicolon (by decide)).bind fun _ _ => braces_pure

theorem ne_closeCurly_of_form? {form : Form} (starts : s.current.kind.form? = some form) :
    s.current.kind ≠ .closeCurly := by
  intro brace
  have inside := TokenKind.isBoundary_of_form? starts
  rw [brace] at inside
  cases inside

theorem braces_straight (level : inner.KeepsBraces) : (straight inner).KeepsBraces s := by
  apply Attempt.braces_look_bind
  split
  · exact Attempt.braces_lift (braces_varDecl level (ne_closeCurly_of_form? ‹_›))
  · exact Attempt.braces_lift (braces_returnStmt level (ne_closeCurly_of_form? ‹_›))
  · exact braces_conditional level .ifBranch (ne_closeCurly_of_form? ‹_›)
  · exact braces_dangling level (ne_closeCurly_of_form? ‹_›)
  · exact Attempt.braces_lift (braces_whileLoop level (ne_closeCurly_of_form? ‹_›))
  · exact Attempt.braces_lift (braces_doWhileLoop level (ne_closeCurly_of_form? ‹_›))
  · exact braces_block level
  · exact Attempt.braces_lift (braces_terminated level)

theorem braces_forOpening (other : s.current.kind ≠ .closeCurly) : forOpening.KeepsBraces s :=
  (braces_advance other).bind fun _ _ =>
    (braces_eat .openParen (by decide)).bind fun _ _ => braces_pure

theorem braces_forClosing (level : inner.KeepsBraces) (start : Token) (init : NodeId) :
    (forClosing inner start init).KeepsBraces s := by
  refine (Expression.braces_parseOrInvalid level.exprs).bind fun condition t => ?_
  refine (braces_eat .semicolon (by decide)).bind fun _ t => ?_
  refine (braces_expression level).bind fun action t => ?_
  refine (braces_eat .closeParen (by decide)).bind fun _ t => ?_
  exact (braces_blockOrInvalid level).bind fun _ _ => braces_alloc _ _

theorem braces_parse_of (level : inner.KeepsBraces)
    (loops : s.current.kind.form? = some .forLoop → (forLoop inner).KeepsBraces s) :
    (parse inner).KeepsBraces s := by
  apply Attempt.braces_look_bind
  split
  · exact Attempt.braces_lift (loops ‹_›)
  · exact braces_straight level

/-- A `for` in the initializer of a `for` stands behind a token more. -/
theorem braces_forLoop (level : inner.KeepsBraces) (s : State)
    (other : s.current.kind ≠ .closeCurly) : (forLoop inner).KeepsBraces s := by
  rw [forLoop_eq]
  refine (braces_forOpening other).bind_run ?_
  refine (braces_recover (braces_parse_of level ?_)).bind fun init t =>
    braces_forClosing level _ init
  intro isFor
  exact braces_forLoop level (forOpening.run s).2 (ne_closeCurly_of_form? isFor)
termination_by s.ahead.length
decreasing_by exact moves_forOpening isFor

theorem braces_parse (level : inner.KeepsBraces) : (parse inner).KeepsBraces s :=
  braces_parse_of level fun isFor => braces_forLoop level s (ne_closeCurly_of_form? isFor)

theorem braces_refusing : Inner.refusing.KeepsBraces where
  exprs := Expression.braces_refusing
  statement _ := braces_tooDeep
  conditional _ _ _ := braces_tooDeep

theorem braces_around (level : inner.KeepsBraces) : (Inner.around inner).KeepsBraces where
  exprs := Expression.braces_around level.exprs
  statement _ := braces_parse level
  conditional _ branch other := braces_conditional level branch other

/-- **The parsers of every level keep their braces.** -/
theorem braces_ofRoom : ∀ room : Nat, (Inner.ofRoom room).KeepsBraces
  | 0 => braces_refusing
  | room + 1 => braces_around (braces_ofRoom room)

end Statement

/-- Whether an attempt reports that a construct is nested too deeply can be read off its outcome. -/
theorem Attempt.raisesTooDeep_iff {p : Attempt NodeId} {s : State} :
    p.RaisesTooDeep s ↔
      (p.run.run s).1.casesOn (fun e => (Fault.syntactic e.fault).isTooDeep) (fun _ => false) = true ∨
        ∃ d ∈ (p.run.run s).2.errors.toList.drop s.errors.size, d.fault.isTooDeep = true := by
  unfold RaisesTooDeep
  rcases p.run.run s with ⟨r, t⟩
  refine or_congr_left ?_
  cases r with
  | ok id => simp
  | error e => simp

instance (p : Attempt NodeId) (s : State) : Decidable (p.RaisesTooDeep s) :=
  decidable_of_iff _ Attempt.raisesTooDeep_iff.symm

/-- **Recovery never passes a `}` of a block around.** From any state and with any room, a statement, a
block, an expression and a data type that do not report anything as nested too deeply pass tokens of
which no prefix has more `}` than `{`, whether they succeed or fail. -/
theorem Rule.passes_no_brace_around (room : Nat) (s : State) (rule : Rule)
    (isRule : rule ∈ [.stmt, .block, .expr, .dataType])
    (shallow : ¬ (rule.parser (Statement.Inner.ofRoom room)).RaisesTooDeep s) :
    ∃ read, s.tokens =
        read ++ ((rule.parser (Statement.Inner.ofRoom room)).run.run s).2.tokens ∧
      ∀ before, before <+: read →
        before.countP (·.kind = .closeCurly) ≤ before.countP (·.kind = .openCurly) := by
  have level := Statement.braces_ofRoom room
  have kept : (rule.parser (Statement.Inner.ofRoom room)).KeepsBraces s := by
    simp only [List.mem_cons, List.not_mem_nil, or_false] at isRule
    rcases isRule with rfl | rfl | rfl | rfl
    · exact Statement.braces_parse level
    · exact Statement.braces_block level
    · exact Expression.braces_parse level.exprs
    · exact DataType.braces_parse
  have live := Attempt.liveAfter_of_shallow shallow
  unfold Attempt.KeepsBraces Attempt.Ensures Ensures at kept
  rcases outcome : (rule.parser (Statement.Inner.ofRoom room)).run.run s with ⟨r, t⟩
  rw [outcome] at kept live
  -- recording its error leaves the tokens ahead as they are
  cases r with
  | ok id => exact kept.passes live
  | error e => exact kept.passes live

/-- In a loop a `{` stands where a `:` is required. It is passed, the `}` behind it ends the block of the
loop, and the next one is left. -/
theorem Rule.passes_no_brace_around_loop :
    let s := State.start maxNesting ⟨"f.viper", "while a \x7b let x \x7b = ; \x7d \x7d b;"⟩
    let attempt := Rule.stmt.parser (Statement.Inner.ofRoom maxNesting)
    (Rule.stmt ∈ [.stmt, .block, .expr, .dataType] ∧ ¬ attempt.RaisesTooDeep s ∧
        (attempt.run.run s).2.tokens.map (·.kind) = [.closeCurly, .identifier, .semicolon]) ∧
      ∃ read, s.tokens = read ++ (attempt.run.run s).2.tokens ∧
        ∀ before, before <+: read →
          before.countP (·.kind = .closeCurly) ≤ before.countP (·.kind = .openCurly) := by
  intro s attempt
  have isRule : Rule.stmt ∈ [.stmt, .block, .expr, .dataType] := List.mem_cons_self
  have shallow : ¬ attempt.RaisesTooDeep s := by decide +kernel
  have left : (attempt.run.run s).2.tokens.map (·.kind) = [.closeCurly, .identifier, .semicolon] := by
    decide +kernel
  exact ⟨⟨isRule, shallow, left⟩, passes_no_brace_around maxNesting s .stmt isRule shallow⟩

end Viper
