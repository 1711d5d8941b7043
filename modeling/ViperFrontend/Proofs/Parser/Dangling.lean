/-
# Clauses without an `if`

An `elif` or `else` where a statement is to stand is parsed with the whole chain of clauses behind it. The
chain is thrown away, and the error says what clause it was. What the conditions and bodies of the chain look
like makes no difference: each is parsed or repaired in its place, and none of them fails. But every clause
behind the first is one level further in than the one before, and where there is no room for it, the refusal
is the error of the whole chain. Then the clause at the start is not named at all.

So the parse of a chain either comes to its end or is the refusal of the one clause that has no room
(`Statement.run_conditional_of_refused`). That takes more clauses behind the first than there are levels left
(`Statement.room_lt_clauses`).

Key definitions: `TokenKind.clause?`, `Statement.linkEnd`, `Statement.refused?`.
Key theorems: `Statement.run_conditional_of_complete`, `Statement.run_conditional_of_refused`,
`Statement.stray_clause_named_iff`.
-/
import ViperFrontend.Proofs.Parser.Nesting
import ViperFrontend.Proofs.Parser.Reading

namespace Viper

open Viper.Parser

/-- The clause that a keyword starts in a chain of conditionals. -/
def TokenKind.clause? : TokenKind → Option Branch
  | .kwElif => some .elifBranch
  | .kwElse => some .elseBranch
  | _ => none

/-- The number of keywords that start a clause. -/
def clauses (read : List Token) : Nat :=
  read.countP (·.kind.clause?.isSome)

theorem clauses_append_cons {before read : List Token} {token : Token} {branch : Branch}
    (clause : token.kind.clause? = some branch) :
    clauses (before ++ token :: read) = clauses before + (clauses read + 1) := by
  simp [clauses, clause]

theorem TokenKind.not_boundary_of_clause {kind : TokenKind} {branch : Branch}
    (clause : kind.clause? = some branch) : kind.isBoundary = false := by
  revert clause
  cases kind <;> simp [clause?, isBoundary]

namespace Statement

/-! ### One clause -/

/-- The clause that follows; none follows an `else`. -/
def following? (branch : Branch) (s : State) : Option Branch :=
  if branch = .elseBranch then none else s.current.kind.clause?

theorem clause_of_following {branch next : Branch} {s : State}
    (follows : following? branch s = some next) : s.current.kind.clause? = some next := by
  unfold following? at follows
  split at follows
  · cases follows
  · exact follows

section Link

variable (inner : Inner) (branch : Branch) (s : State)

/-- Where the next clause may start: behind the condition and the body. -/
def linkEnd : State :=
  ((blockOrInvalid inner).run ((condition inner branch).run s.advance).2).2

theorem reaches_linkEnd : s.advance.Reaches (linkEnd inner branch s) :=
  ((condition inner branch).reaches s.advance).trans ((blockOrInvalid inner).reaches _)

variable {inner branch s}

/-- The clause that follows is parsed one level further in. -/
theorem run_nextLink_eq :
    (nextLink inner branch).run.run s =
      match following? branch s with
      | none => (.ok none, s)
      | some next => (inner.conditional next >>= fun link => pure (some link)).run.run s := by
  unfold nextLink following?
  rw [Attempt.run_bind, Attempt.run_lift, run_current]
  dsimp only
  split
  · rfl
  · rename_i guarded kind
    rw [if_neg guarded, kind]
    rfl
  · rename_i guarded kind
    rw [if_neg guarded, kind]
    rfl
  · rename_i guarded noElif noElse
    have none : s.current.kind.clause? = none := by
      cases kind : s.current.kind <;> simp_all [TokenKind.clause?]
    rw [none, ite_self]
    rfl

/-- A chain fails as its next clause does. -/
theorem run_conditional_of_error {e : SyntaxError} {t : State}
    (failed : (nextLink inner branch).run.run (linkEnd inner branch s) = (.error e, t)) :
    (conditional inner branch).run.run s = (.error e, t) := by
  unfold linkEnd at failed
  simp [conditional, failed]

/-- A chain does not fail by itself. -/
theorem run_conditional_of_ok (next : Option NodeId)
    (done : ((nextLink inner branch).run.run (linkEnd inner branch s)).1 = .ok next) :
    ∃ id, ((conditional inner branch).run.run s).1 = .ok id := by
  unfold linkEnd at done
  simp [conditional, done]

end Link

/-! ### The whole chain -/

/-- The state at the clause of the chain that there is no room for, if there is one. -/
def refused? : Nat → Branch → State → Option State
  | 0, branch, s =>
    let t := linkEnd (Inner.ofRoom 0) branch s
    (following? branch t).map fun _ => t
  | room + 1, branch, s =>
    let t := linkEnd (Inner.ofRoom (room + 1)) branch s
    (following? branch t).bind fun next => refused? room next t

variable {room : Nat} {branch : Branch} {s t : State}

/-- A chain with room for all of its clauses is parsed to its end. -/
theorem run_conditional_of_complete (complete : refused? room branch s = none) :
    ∃ id, ((conditional (.ofRoom room) branch).run.run s).1 = .ok id := by
  induction room generalizing branch s with
  | zero =>
    have last := Option.map_eq_none_iff.1 complete
    exact run_conditional_of_ok none (by rw [run_nextLink_eq, last])
  | succ room ih =>
    cases follows : following? branch (linkEnd (.ofRoom (room + 1)) branch s) with
    | none => exact run_conditional_of_ok none (by rw [run_nextLink_eq, follows])
    | some next =>
      rw [refused?, follows] at complete
      obtain ⟨id, run⟩ := ih complete
      refine run_conditional_of_ok (some id) ?_
      rw [run_nextLink_eq, follows]
      dsimp only
      rw [Attempt.run_bind, Inner.ofRoom_conditional, nested, run]
      rfl

/-- **A chain with a clause for which there is no room is refused as that clause is**, wherever the clause
stands in it. -/
theorem run_conditional_of_refused (refused : refused? room branch s = some t) :
    (conditional (.ofRoom room) branch).run.run s = tooDeep.run.run t := by
  obtain ⟨line, u, refusal, -⟩ := run_tooDeep t
  rw [refusal]
  -- A clause has one level less than the one before it, and what makes one fail makes that one fail.
  induction room generalizing branch s with
  | zero =>
    obtain ⟨next, follows, rfl⟩ := Option.map_eq_some_iff.1 refused
    refine run_conditional_of_error (run_nextLink_eq.trans ?_)
    rw [follows]
    dsimp only
    rw [Attempt.run_bind, Inner.ofRoom_conditional, nested, refusal]
  | succ room ih =>
    obtain ⟨next, follows, further⟩ := Option.bind_eq_some_iff.1 refused
    refine run_conditional_of_error (run_nextLink_eq.trans ?_)
    rw [follows]
    dsimp only
    rw [Attempt.run_bind, Inner.ofRoom_conditional, nested, ih further]

/-! ### What it takes to be refused -/

theorem reaches_of_refused (refused : refused? room branch s = some t) : s.advance.Reaches t := by
  induction room generalizing branch s with
  | zero =>
    obtain ⟨next, follows, rfl⟩ := Option.map_eq_some_iff.1 refused
    exact reaches_linkEnd _ branch s
  | succ room ih =>
    obtain ⟨next, follows, further⟩ := Option.bind_eq_some_iff.1 refused
    exact (reaches_linkEnd _ branch s).trans (.trans (.advance .refl) (ih further))

/-- Before a clause that there is no room for, the chain has a clause for each level that there is. -/
theorem exists_read_of_refused (refused : refused? room branch s = some t) :
    ∃ read next, s.advance.tokens = read ++ t.tokens ∧ room ≤ clauses read ∧
      t.current.kind.clause? = some next := by
  induction room generalizing branch s with
  | zero =>
    obtain ⟨read, split⟩ := (reaches_of_refused refused).tokens_suffix
    obtain ⟨next, follows, rfl⟩ := Option.map_eq_some_iff.1 refused
    exact ⟨read, next, split.symm, Nat.zero_le _, clause_of_following follows⟩
  | succ room ih =>
    obtain ⟨link, follows, further⟩ := Option.bind_eq_some_iff.1 refused
    obtain ⟨before, split⟩ := (reaches_linkEnd (.ofRoom (room + 1)) branch s).tokens_suffix
    obtain ⟨read, next, behind, enough, clause⟩ := ih further
    have keyword := clause_of_following follows
    rw [State.tokens_eq_cons (ahead_ne_nil_of_not_boundary (TokenKind.not_boundary_of_clause keyword)),
      behind] at split
    refine ⟨before ++ (linkEnd (.ofRoom (room + 1)) branch s).current :: read, next, ?_, ?_, clause⟩
    · rw [← split, List.append_assoc, List.cons_append]
    · rw [clauses_append_cons keyword]
      omega

/-- With the keyword of the clause that is refused these are more than there is room for. -/
theorem room_lt_clauses {read : List Token} (refused : refused? room branch s = some t)
    (split : s.advance.tokens = read ++ (tooDeep.run.run t).2.tokens) : room < clauses read := by
  obtain ⟨before, next, behind, enough, keyword⟩ := exists_read_of_refused refused
  obtain ⟨more, skipped⟩ := (tooDeep.run.reaches t).exists_read
    (moves_tooDeep (TokenKind.not_boundary_of_clause keyword))
  rw [behind, skipped, ← List.append_assoc] at split
  rw [← List.append_cancel_right split, clauses_append_cons keyword]
  omega

/-- A clause where a statement is to stand is parsed with its chain, and then it is an error. -/
theorem run_parse_of_clause (inner : Inner) (clause : s.current.kind.clause? = some branch) :
    (parse inner).run.run s = (conditional inner branch >>= fun _ =>
      throw ⟨.danglingElseClause s.current.kind, s.current.line⟩ : Attempt NodeId).run.run s := by
  have start : s.current.kind = .kwElif ∧ branch = .elifBranch ∨
      s.current.kind = .kwElse ∧ branch = .elseBranch := by
    revert clause
    cases s.current.kind <;> simp [TokenKind.clause?, eq_comm]
  rcases start with ⟨kind, rfl⟩ | ⟨kind, rfl⟩ <;> simp [parse, straight, dangling, kind, TokenKind.form?]

/-- If the chain is parsed to its end, the error names its first clause. -/
theorem fst_run_parse_of_complete (clause : s.current.kind.clause? = some branch)
    (complete : refused? room branch s = none) :
    ((parse (Inner.ofRoom room)).run.run s).1 =
      .error ⟨.danglingElseClause s.current.kind, s.current.line⟩ := by
  obtain ⟨id, parsed⟩ := run_conditional_of_complete complete
  rw [run_parse_of_clause _ clause, Attempt.run_bind, parsed]
  rfl

/-- If a clause of the chain is refused, its refusal is all that there is. -/
theorem run_parse_of_refused (clause : s.current.kind.clause? = some branch)
    (refused : refused? room branch s = some t) :
    (parse (Inner.ofRoom room)).run.run s = tooDeep.run.run t := by
  obtain ⟨line, u, refusal, -⟩ := run_tooDeep t
  rw [run_parse_of_clause _ clause, Attempt.run_bind, run_conditional_of_refused refused, refusal]

/-- No clause follows an `else`, so none behind it is refused. -/
theorem refused?_else (room : Nat) (s : State) : refused? room .elseBranch s = none := by
  cases room <;> rfl

/-- **When a clause without an `if` is named.** A statement that starts with `elif` or `else` fails, and passes
at least that keyword. The error names the clause and its line, whatever is in the clause and in the chain
behind it, unless the chain comes to a clause that there is no room for; then all that is reported is that
this one is nested too deeply, at its own line. That takes an `elif` at the start and, among the tokens that
are passed behind it, more clauses than there is room for. -/
theorem stray_clause_named_iff (room : Nat) (clause : s.current.kind.clause? = some branch) :
    let run := (parse (Inner.ofRoom room)).run.run s
    let named : SyntaxError := ⟨.danglingElseClause s.current.kind, s.current.line⟩
    ∃ read, s.tokens = s.current :: read ++ run.2.tokens ∧
      (run.1 = .error named ↔ refused? room branch s = none) ∧
      (∀ t, refused? room branch s = some t → run = tooDeep.run.run t ∧
        run.1 = .error ⟨.nestingTooDeep s.limit, t.current.line⟩) ∧
      (branch = .elseBranch ∨ clauses read ≤ room → run.1 = .error named) := by
  intro run named
  have inside := TokenKind.not_boundary_of_clause clause
  obtain ⟨read, split⟩ : ∃ read, s.tokens = s.current :: read ++ run.2.tokens :=
    ((parse (Inner.ofRoom room)).run.reaches s).exists_read (moves_parse _ inside)
  refine ⟨read, split, ?_⟩
  cases outcome : refused? room branch s with
  | none =>
    have result : run.1 = .error named := fst_run_parse_of_complete clause outcome
    exact ⟨iff_of_true result rfl, nofun, fun _ => result⟩
  | some t =>
    have refusal : run = tooDeep.run.run t := run_parse_of_refused clause outcome
    have reached : s.Reaches t := .trans (.advance .refl) (reaches_of_refused outcome)
    have result : run.1 = .error ⟨.nestingTooDeep s.limit, t.current.line⟩ := by
      rw [refusal, fst_run_tooDeep, reached.limit_eq]
    have other : run.1 ≠ .error named := by
      rw [result]
      simp [named]
    refine ⟨iff_of_false other nofun, fun _ same => Option.some.inj same ▸ ⟨refusal, result⟩, ?_⟩
    rintro (rfl | few)
    · rw [refused?_else] at outcome
      cases outcome
    · rw [State.tokens_eq_cons (ahead_ne_nil_of_not_boundary inside), refusal] at split
      have more := room_lt_clauses outcome (List.cons.inj split).2
      omega

/-- With room for one more level the clause behind is parsed too, and the error names the first. -/
theorem stray_clause_named_of_two :
    let s := State.start maxNesting ⟨"c.viper", "elif a \x7b \x7d else \x7b \x7d"⟩
    s.current.kind.clause? = some .elifBranch ∧
      ((parse (Inner.ofRoom 1)).run.run s).1 = .error ⟨.danglingElseClause .kwElif, 1⟩ := by
  intro s
  have here : s.current = ⟨.kwElif, "elif", 1⟩ := by decide +kernel
  have clause : s.current.kind.clause? = some .elifBranch := by rw [here]; rfl
  have complete : refused? 1 .elifBranch s = none := by decide +kernel
  obtain ⟨read, -, named, -, -⟩ := stray_clause_named_iff 1 clause
  rw [here] at named
  exact ⟨clause, named.2 complete⟩

/-- With no room left the error is that of the clause behind, and names neither. -/
theorem stray_clause_unnamed :
    let s := State.start maxNesting ⟨"c.viper", "elif a \x7b \x7d else \x7b \x7d"⟩
    s.current.kind = .kwElif ∧ ((parse (Inner.ofRoom 0)).run.run s).1 = .error ⟨.nestingTooDeep 256, 1⟩ ∧
      ((parse (Inner.ofRoom 0)).run.run s).1 ≠ .error ⟨.danglingElseClause .kwElif, 1⟩ := by
  decide +kernel

end Statement
end Viper
