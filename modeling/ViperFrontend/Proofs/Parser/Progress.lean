/-
# Every parse comes to its end

The measure of every parse is the number of tokens ahead. A statement passes a token unless it
stands at a `}` or at the end of the file; an item and a skipped construct pass one wherever one
is left. So a round of a loop passes a token or is the last one, also where the round fails for
lack of room, and a loop needs at most one round more than it passes tokens
(`Parser.Repeats`). The one recursion that opens no level, a `for` in the initializer of a `for`,
passes a token each time (`Statement.forWithin_eq`). All of this is said of the bare rounds, which
could go on for ever, and not of the loops, which could not be written down without it.

Parsing a file ends at the end of the file, with no token left (`Item.kind_current_program`,
`Source.ahead_program`).

Key definitions: `Parser.rounds`, `Parser.Repeats`, `Statement.forWithin`, `Progress`.
Key theorems: `Parser.rounds_eq`, `Source.parse_progress`.
-/
import ViperFrontend.Parsed
import ViperFrontend.Proofs.Parser.Rules
import ViperFrontend.Proofs.Token.Scan

namespace Viper

open Viper.Parser

namespace Parser

variable {σ β : Type}

/-- The result of at most `n` rounds, if one of them is the last. -/
def rounds (round : σ → Parser (Round σ β)) : Nat → σ → State → Option (β × State)
  | 0, _, _ => none
  | n + 1, x, s =>
    match (round x).run s with
    | (.done b, t) => some (b, t)
    | (.again y, t) => rounds round n y t

/-- The parser repeats a round from `x` on. Each round passes a token or is the last one, and one
round more than tokens are passed is enough. -/
structure Repeats (p : Parser β) (round : σ → Parser (Round σ β)) (x : σ) : Prop where
  moves : ∀ y s, (round y).Moves s ∨ ∃ b, ((round y).run s).1 = .done b
  ends : ∀ s n, s.ahead.length < n + (p.run s).2.ahead.length → rounds round n x s = some (p.run s)

theorem rounds_eq {round : σ → Parser (Round σ β)} (progress : Progresses round) (x : σ) (s : State)
    (n : Nat) (enough : s.ahead.length < n + ((loop round progress x).run s).2.ahead.length) :
    rounds round n x s = some ((loop round progress x).run s) := by
  revert enough
  show s.ahead.length < n + (runLoop round progress x s).2.ahead.length →
    rounds round n x s = some (runLoop round progress x s)
  fun_induction runLoop round progress x s generalizing n with
  | case1 x s b t run =>
    intro enough
    dsimp only at enough
    have fewer : t.ahead.length ≤ s.ahead.length := by
      have reached := (round x).reaches s
      rw [run] at reached
      exact reached.length_ahead_le
    cases n with
    | zero => omega
    | succ n => rw [rounds, run]
  | case2 x s y t run ih =>
    intro enough
    have moved : t.ahead.length < s.ahead.length := by
      have passed := progress x s y (by rw [run])
      rwa [Moves, run] at passed
    have fewer := (reaches_runLoop round progress y t).length_ahead_le
    cases n with
    | zero => omega
    | succ n =>
      rw [rounds, run]
      exact ih n (by omega)

/-- **A loop whose rounds pass tokens comes to its end.** -/
theorem repeats_loop {round : σ → Parser (Round σ β)} (progress : Progresses round) (x : σ) :
    (loop round progress x).Repeats round x where
  moves y s := by
    cases ended : ((round y).run s).1 with
    | done b => exact .inr ⟨b, rfl⟩
    | again z => exact .inl (progress y s z ended)
  ends := rounds_eq progress x

end Parser

/-! ### A `for` in the initializer of a `for` -/

namespace Statement

/-- Runs a `for` in whose initializer fewer than `n` others stand. -/
def forWithin (inner : Inner) : Nat → State → Option (NodeId × State)
  | 0, _ => none
  | n + 1, s =>
    let opened := forOpening.run s
    if opened.2.current.kind.form? = some .forLoop then
      (forWithin inner n opened.2).map fun init =>
        (forClosing inner opened.1 init.1).run init.2
    else some ((recover (straight inner) >>= forClosing inner opened.1).run opened.2)

/-- **No more `for` can stand in initializers than tokens are left.** -/
theorem forWithin_eq (inner : Inner) (s : State) (n : Nat) (enough : s.ahead.length < n) :
    forWithin inner n s = some ((forLoop inner).run s) := by
  induction n generalizing s with
  | zero => omega
  | succ n ih =>
    show forWithin inner (n + 1) s = some (runFor inner s).1
    rw [forWithin, runFor]
    split
    · rename_i isFor
      have moved := moves_forOpening isFor
      unfold Moves at moved
      rw [ih _ (by omega)]
      rfl
    · rfl

end Statement

/-! ### Items -/

namespace Item

variable (inner : Statement.Inner)

theorem moves_procedure {s : State} (h : s.ahead ≠ []) : (procedure inner).Moves s :=
  (moves_advance h).bind _

theorem moves_struct {s : State} (h : s.ahead ≠ []) : (struct inner).Moves s :=
  (moves_advance h).bind _

theorem moves_varDecl {s : State} (h : s.ahead ≠ []) : (Statement.varDecl inner).Moves s :=
  (moves_advance h).bind _

/-- Parsing a file ends at the end of the file. -/
theorem kind_current_program (s : State) : ((program inner).run s).2.current.kind = .eof := by
  have ended : (program inner).Ensures s fun _ t => beforeEnd? t = none := by
    rw [program_eq]
    exact Ensures.bind (Ensures.foldWhile (fun _ _ => True) trivial fun _ _ _ _ _ => trivial)
      fun _ t _ stopped => stopped.2
  have stopped : beforeEnd? ((program inner).run s).2 = none := ended
  unfold beforeEnd? at stopped
  split at stopped
  · assumption
  · cases stopped

end Item

namespace Source

/-- No token that is ahead ends the file. -/
theorem ahead_eq_nil_of_reaches {limit : Nat} {source : Source} {t : State}
    (h : (State.start limit source).Reaches t) (ended : t.current.kind = .eof) : t.ahead = [] := by
  cases ahead : t.ahead with
  | nil => rfl
  | cons x rest =>
    have mem : x ∈ source.scan.scanned := h.ahead_suffix.subset (by simp [ahead])
    simp only [State.current, ahead] at ended
    exact absurd ended (source.kind_ne_eof_of_mem_scan x mem)

/-- No token is left when a file is parsed. -/
theorem ahead_program (limit room : Nat) (source : Source) :
    ((Item.program (Statement.Inner.ofRoom room)).run (State.start limit source)).2.ahead = [] :=
  ahead_eq_nil_of_reaches (Parser.reaches _ _) (Item.kind_current_program _ _)

end Source

/-! ### All of it together -/

/-- From every state the parsers of a level make progress. -/
structure Progress (inner : Statement.Inner) : Prop where
  /-- a statement passes a token unless it stands at a boundary -/
  statement : ∀ s : State, s.current.kind.isBoundary = false → (Statement.parse inner).run.Moves s
  /-- items pass a token wherever one is left -/
  procedure : ∀ s : State, s.current.kind ≠ .eof → (Item.procedure inner).Moves s
  struct : ∀ s : State, s.current.kind ≠ .eof → (Item.struct inner).Moves s
  varDecl : ∀ s : State, s.current.kind ≠ .eof → (Statement.varDecl inner).Moves s
  /-- so does what is skipped for lack of room -/
  skipped : ∀ s : State, s.current.kind ≠ .eof → skipConstruct.Moves s
  tooDeep : ∀ s : State, s.current.kind.isBoundary = false → Parser.tooDeep.run.Moves s
  /-- the loops -/
  items : (Item.items inner false).Repeats
    (whileRound Item.beforeEnd? (Item.programRound inner)) false
  statements : (Statement.statements inner).Repeats
    (whileRound Statement.beforeBoundary? (Statement.blockRound inner)) #[]
  members : (Item.members inner).Repeats
    (whileRound Statement.beforeBoundary? (Item.memberRound inner)) ⟨#[], #[]⟩
  arguments : (commaList (Expression.parseOrInvalid inner.exprs)).Repeats
    (listRound (Expression.parseOrInvalid inner.exprs)) #[]
  parameters : (commaList Item.parameter).Repeats (listRound Item.parameter) #[]
  expression : ∀ operand : NodeId, (Attempt.foldWhile Expression.operator?
      (fun p left => Expression.binary inner.exprs left p)
      (Expression.moves_binary_of_operator inner.exprs) operand).run.Repeats
    (Attempt.whileRound Expression.operator? fun p left => Expression.binary inner.exprs left p)
    operand
  operand : ∀ (p : Precedence) (operand : NodeId), (Attempt.foldWhile
      (fun s => (Expression.operator? s).filter p.grabs)
      (fun next right => inner.exprs.binary right next)
      (Expression.moves_binary_of_filter inner.exprs) operand).run.Repeats
    (Attempt.whileRound (fun s => (Expression.operator? s).filter p.grabs)
      fun next right => inner.exprs.binary right next) operand
  skipping : skipConstruct.Repeats skipRound 0
  /-- the recursion without a level -/
  initializers : ∀ (s : State) (n : Nat), s.ahead.length < n →
    Statement.forWithin inner n s = some ((Statement.forLoop inner).run s)
  /-- a file is parsed to its end -/
  ends : ∀ s : State, ((Item.program inner).run s).2.current.kind = .eof

theorem progress_of (inner : Statement.Inner) : Progress inner where
  statement _ := Statement.moves_parse inner
  procedure _ here := Item.moves_procedure inner (State.ahead_ne_nil here)
  struct _ here := Item.moves_struct inner (State.ahead_ne_nil here)
  varDecl _ here := Item.moves_varDecl inner (State.ahead_ne_nil here)
  skipped _ here := moves_skipConstruct (State.ahead_ne_nil here)
  tooDeep _ := moves_tooDeep
  items := repeats_loop _ false
  statements := repeats_loop _ #[]
  members := repeats_loop _ (⟨#[], #[]⟩ : Item.Members)
  arguments := repeats_loop _ #[]
  parameters := repeats_loop _ #[]
  expression operand := repeats_loop _ operand
  operand _ operand := repeats_loop _ operand
  skipping := repeats_loop _ 0
  initializers := Statement.forWithin_eq inner
  ends := Item.kind_current_program inner

/-- **Every parse makes progress and comes to its end**, at every depth of nesting and from every
state, and no token of a source is left. -/
theorem Source.parse_progress :
    (∀ room : Nat, Progress (Statement.Inner.ofRoom room)) ∧
      ∀ (limit room : Nat) (source : Source),
        ((Item.program (Statement.Inner.ofRoom room)).run (State.start limit source)).2.ahead = [] :=
  ⟨fun _ => progress_of _, Source.ahead_program⟩

end Viper
