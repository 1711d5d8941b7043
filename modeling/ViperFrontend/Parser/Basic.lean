/-
# Parsers

A parser reads tokens and makes nodes: it takes a state to a value and a state that can be
reached from it. The proof of that is part of the parser, so everything that the steps of
`State.Reaches` keep is kept by every parser, and a loop that passes a token in each round
comes to its end. A parser that can fail is an `Attempt`; its syntax error is not yet
recorded.

Key definitions: `Parser`, `Attempt`, `Parser.Moves`, `Parser.loop`, `Parser.foldWhile`.
Key theorems: `Parser.loop_eq`, `Parser.foldWhile_eq`.
-/
import ViperFrontend.Parser.State

namespace Viper

open Viper.Parser (State)

/-- A step of parsing that gives a value. -/
structure Parser (α : Type) where
  run : State → α × State
  reaches : ∀ s : State, s.Reaches (run s).2

namespace Parser

variable {α β σ κ : Type}

@[ext]
theorem ext {p q : Parser α} (h : ∀ s, p.run s = q.run s) : p = q := by
  obtain ⟨p, _⟩ := p
  obtain ⟨q, _⟩ := q
  obtain rfl : p = q := funext h
  rfl

instance : Monad Parser where
  pure a := ⟨fun s => (a, s), fun _ => .refl⟩
  bind p f :=
    ⟨fun s => match p.run s with | (a, t) => (f a).run t,
      fun s => (p.reaches s).trans ((f (p.run s).1).reaches (p.run s).2)⟩

@[simp]
theorem run_pure (a : α) (s : State) : (pure a : Parser α).run s = (a, s) := rfl

@[simp]
theorem run_bind (p : Parser α) (f : α → Parser β) (s : State) :
    (p >>= f).run s = (f (p.run s).1).run (p.run s).2 := rfl

instance : LawfulMonad Parser :=
  LawfulMonad.mk' Parser (fun _ => rfl) (fun _ _ => rfl) (fun _ _ _ => rfl)

@[simp]
theorem run_map (f : α → β) (p : Parser α) (s : State) :
    (f <$> p).run s = (f (p.run s).1, (p.run s).2) := rfl

/-! ## The steps -/

/-- Looks at the state. -/
def look (f : State → α) : Parser α :=
  ⟨fun s => (f s, s), fun _ => .refl⟩

/-- The current token. -/
def current : Parser Token := look State.current

/-- The token after the current one. -/
def peek : Parser Token := look State.peek

/-- How deep constructs may nest. -/
def nestingLimit : Parser Nat := look State.limit

/-- Passes the current token and gives it. -/
def advance : Parser Token :=
  ⟨fun s => (s.current, s.advance), fun _ => .advance .refl⟩

/-- Records a syntax error. -/
def record (e : SyntaxError) : Parser Unit :=
  ⟨fun s => ((), s.record e), fun _ => .record e .refl⟩

/-- Makes a node. -/
def alloc (construct : Construct) (token : Token) : Parser NodeId :=
  ⟨fun s => s.alloc construct token, fun _ => .alloc construct token .refl⟩

/-- Adds an item to the file. -/
def pushRoot (id : NodeId) : Parser Unit :=
  ⟨fun s => ((), s.pushRoot id), fun _ => .pushRoot id .refl⟩

@[simp]
theorem run_look (f : State → α) (s : State) : (look f).run s = (f s, s) := rfl

@[simp]
theorem run_current (s : State) : current.run s = (s.current, s) := rfl

@[simp]
theorem run_peek (s : State) : peek.run s = (s.peek, s) := rfl

@[simp]
theorem run_nestingLimit (s : State) : nestingLimit.run s = (s.limit, s) := rfl

@[simp]
theorem run_advance (s : State) : advance.run s = (s.current, s.advance) := rfl

/-! ## Parsers that pass a token -/

/-- From `s` the parser passes at least one token. -/
def Moves (p : Parser α) (s : State) : Prop :=
  (p.run s).2.ahead.length < s.ahead.length

theorem moves_advance {s : State} (h : s.ahead ≠ []) : advance.Moves s := by
  unfold Moves
  rw [run_advance, State.ahead_advance, List.length_tail]
  exact Nat.sub_lt (List.length_pos_iff.2 h) Nat.one_pos

theorem Moves.bind {p : Parser α} {s : State} (h : p.Moves s) (f : α → Parser β) :
    (p >>= f).Moves s :=
  Nat.lt_of_le_of_lt ((f (p.run s).1).reaches (p.run s).2).length_ahead_le h

theorem moves_bind {p : Parser α} {f : α → Parser β} {s : State}
    (h : (f (p.run s).1).Moves (p.run s).2) : (p >>= f).Moves s :=
  Nat.lt_of_lt_of_le h (p.reaches s).length_ahead_le

/-! ## Loops -/

/-- How a round of a loop ends: with what the next round starts from, or with the result. -/
inductive Round (σ β : Type) where
  | again (x : σ)
  | done (b : β)

/-- Each round that asks for another one passes a token. -/
def Progresses (round : σ → Parser (Round σ β)) : Prop :=
  ∀ x s y, ((round x).run s).1 = .again y → (round x).Moves s

/-- Runs rounds until one is done. -/
def runLoop (round : σ → Parser (Round σ β)) (progress : Progresses round) (x : σ)
    (s : State) : β × State :=
  match _result : (round x).run s with
  | (.done b, t) => (b, t)
  | (.again y, t) => runLoop round progress y t
termination_by s.ahead.length
decreasing_by
  have moved := progress x s y (by rw [_result])
  rw [Moves, _result] at moved
  exact moved

theorem reaches_runLoop (round : σ → Parser (Round σ β)) (progress : Progresses round) (x : σ)
    (s : State) : s.Reaches (runLoop round progress x s).2 := by
  fun_induction runLoop round progress x s with
  | case1 x s b t h =>
    have := (round x).reaches s
    rwa [h] at this
  | case2 x s y t h ih =>
    have := (round x).reaches s
    rw [h] at this
    exact this.trans ih

/-- Repeats a round until it is done. -/
def loop (round : σ → Parser (Round σ β)) (progress : Progresses round) (x : σ) : Parser β :=
  ⟨runLoop round progress x, reaches_runLoop round progress x⟩

/-- A loop is one round and, if that asks for more, the loop again. -/
theorem loop_eq (round : σ → Parser (Round σ β)) (progress : Progresses round) (x : σ) :
    loop round progress x = round x >>= fun
      | .done b => pure b
      | .again y => loop round progress y := by
  apply Parser.ext
  intro s
  show runLoop round progress x s = _
  rw [runLoop, run_bind]
  split <;> rename_i h <;> rw [h] <;> rfl

/-- One round of `foldWhile`. -/
def whileRound (test : State → Option κ) (body : κ → σ → Parser σ) (x : σ) :
    Parser (Round σ σ) := do
  match ← look test with
  | none => return .done x
  | some k => return .again (← body k x)

theorem progresses_whileRound {test : State → Option κ} {body : κ → σ → Parser σ}
    (moves : ∀ k x s, test s = some k → (body k x).Moves s) :
    Progresses (whileRound test body) := by
  intro x s y h
  unfold whileRound at h ⊢
  apply moves_bind
  rw [run_bind, run_look] at h
  rw [run_look]
  dsimp only at h ⊢
  split at h
  · cases h
  · exact (moves _ _ _ ‹_›).bind _

/-- Runs the body while the test of the state gives something to run it on. -/
def foldWhile (test : State → Option κ) (body : κ → σ → Parser σ)
    (moves : ∀ k x s, test s = some k → (body k x).Moves s) (x : σ) : Parser σ :=
  loop (whileRound test body) (progresses_whileRound moves) x

theorem foldWhile_eq (test : State → Option κ) (body : κ → σ → Parser σ)
    (moves : ∀ k x s, test s = some k → (body k x).Moves s) (x : σ) :
    foldWhile test body moves x = look test >>= fun
      | none => pure x
      | some k => body k x >>= foldWhile test body moves := by
  rw [foldWhile, loop_eq, whileRound]
  apply Parser.ext
  intro s
  simp only [run_bind, run_look]
  cases test s <;> rfl

end Parser

/-- A parser that can fail with a syntax error. -/
abbrev Attempt := ExceptT SyntaxError Parser

namespace Attempt

open Viper.Parser

variable {α β κ : Type}

@[simp]
theorem run_pure (a : α) (s : State) : (pure a : Attempt α).run.run s = (.ok a, s) := rfl

@[simp]
theorem run_throw (e : SyntaxError) (s : State) :
    (throw e : Attempt α).run.run s = (.error e, s) := rfl

@[simp]
theorem run_lift (p : Parser α) (s : State) :
    (liftM p : Attempt α).run.run s = (.ok (p.run s).1, (p.run s).2) := rfl

@[simp]
theorem run_bind (p : Attempt α) (f : α → Attempt β) (s : State) :
    (p >>= f).run.run s =
      match (p.run.run s).1 with
      | .ok a => (f a).run.run (p.run.run s).2
      | .error e => (.error e, (p.run.run s).2) := by
  rw [ExceptT.run_bind, Parser.run_bind]
  cases (p.run.run s).1 <;> rfl

theorem moves_lift {p : Parser α} {s : State} (h : p.Moves s) :
    (liftM p : Attempt α).run.Moves s := h

theorem moves_bind {p : Attempt α} {s : State} (h : p.run.Moves s) (f : α → Attempt β) :
    (p >>= f).run.Moves s := by
  rw [ExceptT.run_bind]
  exact Moves.bind h _

/-- Looking at the state before an attempt changes nothing. -/
theorem moves_look_bind {f : State → β} {g : β → Attempt α} {s : State}
    (h : (g (f s)).run.Moves s) : (liftM (look f) >>= g : Attempt α).run.Moves s := h

/-- An attempt that starts by passing a token passes one. -/
theorem moves_advance_bind {s : State} (h : s.ahead ≠ []) (f : Token → Attempt α) :
    (liftM advance >>= f : Attempt α).run.Moves s :=
  moves_bind (moves_lift (moves_advance h)) f

/-- One round of `foldWhile`. -/
def whileRound (test : State → Option κ) (body : κ → α → Attempt α) (x : α) :
    Parser (Round α (Except SyntaxError α)) := do
  match ← look test with
  | none => return .done (.ok x)
  | some k =>
    match ← (body k x).run with
    | .ok y => return .again y
    | .error e => return .done (.error e)

theorem progresses_whileRound {test : State → Option κ} {body : κ → α → Attempt α}
    (moves : ∀ k x s, test s = some k → (body k x).run.Moves s) :
    Progresses (whileRound test body) := by
  intro x s y h
  unfold whileRound at h ⊢
  apply Parser.moves_bind
  rw [Parser.run_bind, run_look] at h
  rw [run_look]
  dsimp only at h ⊢
  split at h
  · cases h
  · exact (moves _ _ _ ‹_›).bind _

/-- Runs the body while the test of the state gives something to run it on, and fails as soon
as the body does. -/
def foldWhile (test : State → Option κ) (body : κ → α → Attempt α)
    (moves : ∀ k x s, test s = some k → (body k x).run.Moves s) (x : α) : Attempt α :=
  ExceptT.mk (loop (whileRound test body) (progresses_whileRound moves) x)

theorem foldWhile_eq (test : State → Option κ) (body : κ → α → Attempt α)
    (moves : ∀ k x s, test s = some k → (body k x).run.Moves s) (x : α) :
    foldWhile test body moves x = liftM (look test) >>= fun
      | none => pure x
      | some k => body k x >>= foldWhile test body moves := by
  apply ExceptT.ext
  apply Parser.ext
  intro s
  rw [run_bind, run_lift, foldWhile, ExceptT.run_mk, loop_eq, whileRound]
  simp only [Parser.run_bind, run_look]
  cases test s with
  | none => rfl
  | some k =>
    dsimp only
    rw [run_bind, Parser.run_bind]
    cases ((body k x).run.run s).1 <;> rfl

end Attempt
end Viper
