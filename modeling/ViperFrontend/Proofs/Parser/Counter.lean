/-
# The depth of nesting as a counter

The parsers of a level are built for the room that is left, so none of them has to know how deep it is.
A parser that keeps the depth in its state goes another way: one level further in it refuses if the
limit is reached, and otherwise counts up before it goes on and down again afterwards, whether that
succeeded or failed (`Parser.counted`).

Only a refusal looks at the limit of a state. So the counter may have its place (`State.withLimit`), and
the limit is given from outside; all the rest of the parsers stays as it is. They follow those with the
room handed to them, level by level, and so they come to the same from every state and every depth
(`Rule.exec_eq`, `Machine.count_program`). The number of levels that are built for this does not matter
as long as there is one for each level that is left (`Statement.follows_counting`).

Key definitions: `Parser.counted`, `Statement.Inner.counting`, `Machine.count`, `Rule.exec`.
Key theorems: `Statement.follows_counting`, `Rule.exec_eq`.
-/
import ViperFrontend.Proofs.Parser.Lockstep
import ViperFrontend.Proofs.Parser.Session

namespace Viper

open Viper.Parser

namespace Parser

/-! ### One level further in -/

namespace State

/-- The state with another number in the place of the limit. -/
def withLimit (s : State) (limit : Nat) : State :=
  { s with limit }

variable {s t : State}

theorem withLimit_of_eq {limit : Nat} (h : s.limit = limit) : s.withLimit limit = s := by
  subst h
  rfl

theorem advance_withLimit (s : State) (limit : Nat) :
    (s.withLimit limit).advance = s.advance.withLimit limit := by
  obtain ⟨file, _, ahead, endLine, ast, errors⟩ := s
  cases ahead <;> rfl

/-- No step of a parse depends on the limit. -/
theorem Reaches.withLimit (h : s.Reaches t) (limit : Nat) :
    (s.withLimit limit).Reaches (t.withLimit limit) := by
  induction h with
  | refl => exact .refl
  | @advance t _ ih => exact advance_withLimit t limit ▸ ih.advance
  | record e _ ih => exact ih.record e
  | alloc construct token _ ih => exact ih.alloc construct token
  | pushRoot id _ ih => exact ih.pushRoot id

end State

variable {limit depth : Nat} {attempt : Attempt NodeId} {s s' : State}

/-- Runs an attempt one level further in. The state has the depth in the place of the limit. -/
def runCounted (limit : Nat) (attempt : Attempt NodeId) (s : State) :
    Except SyntaxError NodeId × State :=
  if limit ≤ s.limit then
    let refused := tooDeep.run.run (s.withLimit limit)
    (refused.1, refused.2.withLimit s.limit)
  else
    let done := attempt.run.run (s.withLimit (s.limit + 1))
    (done.1, done.2.withLimit (done.2.limit - 1))

theorem runCounted_of_le (full : limit ≤ s.limit) :
    runCounted limit attempt s =
      ((tooDeep.run.run (s.withLimit limit)).1,
        (tooDeep.run.run (s.withLimit limit)).2.withLimit s.limit) :=
  if_pos full

/-- What is nested leaves the counter as it is, so after it the counter is back where it was. -/
theorem runCounted_of_lt (free : s.limit < limit) :
    runCounted limit attempt s =
      ((attempt.run.run (s.withLimit (s.limit + 1))).1,
        (attempt.run.run (s.withLimit (s.limit + 1))).2.withLimit s.limit) := by
  have counter : (attempt.run.run (s.withLimit (s.limit + 1))).2.limit = s.limit + 1 :=
    (attempt.run.reaches (s.withLimit (s.limit + 1))).limit_eq
  rw [runCounted, if_neg (Nat.not_le_of_lt free)]
  dsimp only
  rw [counter, Nat.add_sub_cancel]

theorem reaches_runCounted (limit : Nat) (attempt : Attempt NodeId) (s : State) :
    s.Reaches (runCounted limit attempt s).2 := by
  rcases Nat.lt_or_ge s.limit limit with free | full
  · rw [runCounted_of_lt free]
    exact (attempt.run.reaches (s.withLimit (s.limit + 1))).withLimit s.limit
  · rw [runCounted_of_le full]
    exact (tooDeep.run.reaches (s.withLimit limit)).withLimit s.limit

/-- An attempt one level further in, with the depth counted: up before it and down after it. -/
def counted (limit : Nat) (attempt : Attempt NodeId) : Attempt NodeId :=
  ExceptT.mk ⟨runCounted limit attempt, reaches_runCounted limit attempt⟩

theorem run_counted (limit : Nat) (attempt : Attempt NodeId) (s : State) :
    (counted limit attempt).run.run s = runCounted limit attempt s := rfl

theorem moves_counted
    (moves : ∀ s : State, s.current.kind.isBoundary = false → attempt.run.Moves s)
    (h : s.current.kind.isBoundary = false) : (counted limit attempt).run.Moves s := by
  unfold Moves
  rw [run_counted]
  rcases Nat.lt_or_ge s.limit limit with free | full
  · rw [runCounted_of_lt free]
    exact moves (s.withLimit (s.limit + 1)) h
  · rw [runCounted_of_le full]
    exact moves_tooDeep (s := s.withLimit limit) h

end Parser

/-! ### The parsers of all levels -/

/-- The parsers of a level, each of which counts itself. -/
def Expression.Inner.counted (limit : Nat) (inner : Inner) : Inner where
  primary := Parser.counted limit inner.primary
  binary left p := Parser.counted limit (inner.binary left p)
  identifier := Parser.counted limit inner.identifier
  moves_binary left p _ h := moves_counted (inner.moves_binary left p) h

namespace Statement.Inner

/-- The parsers of a level, each of which counts itself. -/
def counted (limit : Nat) (inner : Inner) : Inner where
  exprs := inner.exprs.counted limit
  statement := Parser.counted limit inner.statement
  conditional branch := Parser.counted limit (inner.conditional branch)
  moves_statement _ h := moves_counted inner.moves_statement h

/-- The parsers one level further in, with the depth counted, for a number of levels. -/
def counting (limit : Nat) : Nat → Inner
  | 0 => refusing.counted limit
  | levels + 1 => (around (counting limit levels)).counted limit

end Statement.Inner

/-! ### Counting and handing the room on -/

/-- The second state has the depth in the place of the limit. -/
def Parser.Simulation.ofCounter (limit depth : Nat) : Simulation Renaming.same where
  rel s s' := s.limit = limit ∧ s' = s.withLimit depth
  live _ := True
  live_of_reaches _ _ := trivial
  current_eq := by
    rintro s _ ⟨-, rfl⟩ -
    exact (Renaming.token_same s.current).symm
  advance := by
    rintro s _ ⟨limited, rfl⟩ -
    exact ⟨(State.Reaches.refl.advance.limit_eq).trans limited, s.advance_withLimit depth⟩
  record := by
    rintro s _ e ⟨limited, rfl⟩ -
    rw [Renaming.error_same]
    exact ⟨limited, rfl⟩
  alloc_fst := by
    rintro s _ c t ⟨-, rfl⟩
    rw [Renaming.construct_same, Renaming.token_same, Renaming.node_same]
    rfl
  alloc_snd := by
    rintro s _ c t ⟨limited, rfl⟩
    rw [Renaming.construct_same, Renaming.token_same]
    exact ⟨limited, rfl⟩
  pushRoot := by
    rintro s _ id ⟨limited, rfl⟩
    rw [Renaming.node_same]
    exact ⟨limited, rfl⟩

theorem Renaming.outcome_same {α : Type} {f : α → α} (keeps : ∀ a, f a = a)
    (result : Except SyntaxError α) : same.outcome f result = result := by
  cases result with
  | ok a => rw [outcome, keeps]
  | error e => rw [outcome, error_same]

section Levels

open Simulation (ofCounter)

variable {limit depth : Nat} {s s' : State}

/-- With a level left, what is nested is counted one deeper, and what comes behind it is not. -/
theorem follows_counted (free : depth < limit) {p p' : Attempt NodeId}
    (h : p.Follows (ofCounter limit (depth + 1)) Renaming.same.node p' s (s.withLimit (depth + 1))) :
    p.Follows (ofCounter limit depth) Renaming.same.node (counted limit p') s s' := by
  rintro ⟨limited, rfl⟩ -
  obtain ⟨value, after⟩ := h ⟨limited, rfl⟩ (by cases (p.run.run s).1 <;> trivial)
  rw [run_counted, runCounted_of_lt (s := s.withLimit depth) free]
  refine ⟨value, after.1, ?_⟩
  exact congrArg (·.withLimit depth) after.2

/-- With no level left, what is nested is refused, whatever it is. -/
theorem follows_refused (full : limit ≤ depth) {p' : Attempt NodeId} :
    tooDeep.Follows (ofCounter limit depth) Renaming.same.node (counted limit p') s s' := by
  rintro ⟨rfl, rfl⟩ -
  rw [run_counted, runCounted_of_le (s := s.withLimit depth) full]
  refine ⟨(Renaming.outcome_same (congrFun Renaming.node_same) _).symm, ?_, rfl⟩
  exact (tooDeep.run.reaches s).limit_eq

theorem Expression.Inner.Follows.counted (free : depth < limit) {inner inner' : Inner}
    (h : inner.Follows (ofCounter limit (depth + 1)) inner') :
    inner.Follows (ofCounter limit depth) (inner'.counted limit) where
  primary s _ := follows_counted free (h.primary s _)
  binary s _ left p := follows_counted free (h.binary s _ left p)
  identifier s _ kind := follows_counted free (h.identifier s _ kind)

theorem Expression.Inner.follows_refused (full : limit ≤ depth) (inner' : Inner) :
    refusing.Follows (ofCounter limit depth) (inner'.counted limit) where
  primary _ _ := Viper.follows_refused full
  binary _ _ _ _ := Viper.follows_refused full
  identifier _ _ _ := Viper.follows_refused full

namespace Statement

theorem Inner.Follows.counted (free : depth < limit) {inner inner' : Inner}
    (h : inner.Follows (ofCounter limit (depth + 1)) inner') :
    inner.Follows (ofCounter limit depth) (inner'.counted limit) where
  exprs := h.exprs.counted free
  statement s _ := follows_counted free (h.statement s _)
  conditional s _ branch := follows_counted free (h.conditional s _ branch)

theorem Inner.follows_refused (full : limit ≤ depth) (inner' : Inner) :
    refusing.Follows (ofCounter limit depth) (inner'.counted limit) where
  exprs := Expression.Inner.follows_refused full inner'.exprs
  statement _ _ := Viper.follows_refused full
  conditional _ _ _ := Viper.follows_refused full

/-- **Counting the depth follows handing the room on**, as long as there are parsers for every level
that is left. -/
theorem follows_counting {levels : Nat} (enough : limit - depth ≤ levels) :
    (Inner.ofRoom (limit - depth)).Follows (ofCounter limit depth) (Inner.counting limit levels) := by
  induction levels generalizing depth with
  | zero =>
    have full : limit - depth = 0 := Nat.le_zero.1 enough
    rw [full]
    exact Inner.follows_refused (Nat.le_of_sub_eq_zero full) Inner.refusing
  | succ levels ih =>
    rcases Nat.lt_or_ge depth limit with free | full
    · obtain ⟨room, left⟩ : ∃ room, limit - depth = room + 1 := ⟨limit - (depth + 1), by omega⟩
      have deeper : limit - (depth + 1) = room := by omega
      have nested : (Inner.ofRoom room).Follows (ofCounter limit (depth + 1))
          (Inner.counting limit levels) := deeper ▸ ih (by omega)
      rw [left]
      exact (follows_around nested).counted free
    · rw [Nat.sub_eq_zero_of_le full]
      exact Inner.follows_refused full _

end Statement

end Levels

/-! ### Running a parser with its counter -/

/-- The parser of every construct follows itself. -/
theorem Rule.follows {S : Simulation Renaming.same} {inner inner' : Statement.Inner} {s s' : State}
    (h : inner.Follows S inner') (rule : Rule) :
    (rule.parser inner).Follows S Renaming.same.node (rule.parser inner') s s' := by
  have text : (Renaming.same.token s.current).text = Renaming.same.text s.current.text :=
    congrArg Token.text (Renaming.token_same s.current)
  cases rule with
  | expr => exact Expression.follows_parse h.exprs
  | exprOrInvalid => exact Attempt.follows_lift (Expression.follows_parseOrInvalid h.exprs)
  | exprPrimary => exact Expression.follows_primary h.exprs
  | exprPrefixed => exact Expression.follows_prefixed h.exprs
  | exprGrouping => exact Expression.follows_grouping h.exprs
  | exprIdentifier => exact Expression.follows_identifier h.exprs text
  | exprCall => exact Attempt.follows_lift (Expression.follows_call h.exprs text)
  | exprBinary left p =>
    have followed : (Expression.binary inner.exprs left p).Follows S Renaming.same.node
        (Expression.binary inner'.exprs (Renaming.same.node left) p) s s' :=
      Expression.follows_binary h.exprs left p
    rwa [show Renaming.same.node left = left from congrFun Renaming.node_same left] at followed
  | stmt => exact Statement.follows_parse h
  | exprStmt => exact Attempt.follows_lift (Statement.follows_expression h)
  | varDecl => exact Attempt.follows_lift (Statement.follows_varDecl h)
  | returnStmt => exact Attempt.follows_lift (Statement.follows_returnStmt h)
  | ifStmt => exact Statement.follows_conditional h .ifBranch
  | danglingClause => exact Statement.follows_dangling h
  | whileLoop => exact Attempt.follows_lift (Statement.follows_whileLoop h)
  | doWhileLoop => exact Attempt.follows_lift (Statement.follows_doWhileLoop h)
  | forLoop => exact Attempt.follows_lift (Statement.follows_forLoop h s s')
  | block => exact Statement.follows_block h
  | struct => exact Attempt.follows_lift (Item.follows_struct h)
  | procedure => exact Attempt.follows_lift (Item.follows_procedure h)
  | dataType => exact DataType.follows_parse
  | dataTypeOrInvalid => exact Attempt.follows_lift DataType.follows_parseOrInvalid

namespace Machine

open Simulation (ofCounter)

variable {m : Machine}

/-- The parsers one level further in, with the depth counted. -/
def levels (m : Machine) : Statement.Inner :=
  Statement.Inner.counting m.state.limit m.state.limit

/-- Runs a parser that counts the depth. -/
def count {α : Type} (m : Machine) (p : Parser α) : α × Machine :=
  let done := p.run (m.state.withLimit m.depth)
  (done.1, ⟨done.2.withLimit m.state.limit, done.2.limit⟩)

/-- What follows a parser to which the room is handed does the same and leaves the counter as it is. -/
theorem count_eq {α : Type} {alive : α → State → Prop} {f : α → α} {p p' : Parser α}
    (h : FollowsIf alive (ofCounter m.state.limit m.depth) f p p' m.state (m.state.withLimit m.depth))
    (always : ∀ a t, alive a t) (keeps : ∀ a, f a = a) : m.count p' = m.perform p := by
  obtain ⟨value, limit_eq, after⟩ := h ⟨rfl, rfl⟩ (always _ _)
  have state_eq : (p'.run (m.state.withLimit m.depth)).2.withLimit m.state.limit = (p.run m.state).2 := by
    rw [after]
    exact State.withLimit_of_eq limit_eq
  have depth_eq : (p'.run (m.state.withLimit m.depth)).2.limit = m.depth := by
    rw [after]
    rfl
  rw [count, perform, value, keeps, state_eq, depth_eq]

theorem follows_levels (m : Machine) :
    (Statement.Inner.ofRoom m.room).Follows (ofCounter m.state.limit m.depth) m.levels :=
  Statement.follows_counting (Nat.sub_le _ _)

theorem count_attempt {α : Type} {f : α → α} {p p' : Attempt α} (keeps : ∀ a, f a = a)
    (h : p.Follows (ofCounter m.state.limit m.depth) f p' m.state (m.state.withLimit m.depth)) :
    m.count p'.run = m.perform p.run :=
  count_eq h (fun result _ => by cases result <;> trivial) (Renaming.outcome_same keeps)

/-- **Counting through a whole file** is handing the room on. -/
theorem count_program (m : Machine) :
    m.count (Item.program m.levels) = Session.program.exec m :=
  count_eq (Item.follows_program m.follows_levels) (fun _ _ => trivial) fun _ => rfl

theorem count_dataTypeToken (m : Machine) :
    m.count DataType.token.run = Session.dataTypeToken.exec m :=
  count_attempt Renaming.token_same DataType.follows_token

end Machine

/-- Runs the parser of a construct, with the depth counted. -/
def Rule.exec (rule : Rule) (m : Machine) : Except SyntaxError NodeId × Machine :=
  m.count (rule.parser m.levels).run

/-- **Counting through a construct** is handing the room on, from every state and depth. -/
theorem Rule.exec_eq (rule : Rule) (m : Machine) : rule.exec m = (Session.rule rule).exec m :=
  Machine.count_attempt (congrFun Renaming.node_same) (rule.follows m.follows_levels)

end Viper
