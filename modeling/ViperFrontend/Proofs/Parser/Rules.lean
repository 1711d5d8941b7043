/-
# Rules for reasoning about parsers

What every parse keeps: diagnostics are only ever added behind those already recorded, and
nodes behind those already made (`State.Reaches.errors_extend`, `State.Reaches.faces_extend`).

What one parser does is said by `Parser.Ensures`: from a state it ends with a value and a
state of which something holds. For an attempt, `Attempt.Ensures` says one thing of its value
and another of its error. There is a rule for each way of putting parsers together: one
after the other (`Parser.Ensures.bind`, `Attempt.Ensures.bind`) and in a loop, which keeps
whatever each of its rounds keeps (`Parser.loop_rule`, `Parser.Ensures.foldWhile`,
`Attempt.Ensures.foldWhile`).

Key definitions: `Parser.Ensures`, `Attempt.Ensures`, `Item.items`.
Key theorems: `Parser.State.Reaches.errors_extend`, `Parser.State.Reaches.faces_extend`,
`Parser.loop_rule`.
-/
import ViperFrontend.Parser.Item
import ViperFrontend.Proofs.Ast.Forest

namespace Viper

/-- What is recorded for an error in a file. -/
def SyntaxError.diagnostic (file : String) (e : SyntaxError) : Diagnostic :=
  ⟨.syntactic e.fault, e.line, file⟩

namespace Parser
namespace State

theorem toList_errors_record (e : SyntaxError) (s : State) :
    (s.record e).errors.toList = s.errors.toList ++ [e.diagnostic s.file] :=
  Array.toList_push

theorem toList_noteFault (file : String) (read : Option Scanned) (errors : Array Diagnostic) :
    (noteFault file read errors).toList =
      errors.toList ++ (read.bind (·.diagnostic? file)).toList := by
  unfold noteFault
  cases read.bind (·.diagnostic? file) <;> simp

/-- Diagnostics are only ever added. -/
theorem Reaches.errors_extend {s t : State} (h : s.Reaches t) :
    s.errors.toList <+: t.errors.toList := by
  induction h with
  | refl => exact List.prefix_refl _
  | advance _ ih =>
    refine ih.trans ?_
    unfold State.advance
    split
    · exact List.prefix_refl _
    · rw [toList_noteFault]
      exact List.prefix_append _ _
  | record e _ ih =>
    refine ih.trans ?_
    simp [State.record]
  | alloc _ _ _ ih => exact ih
  | pushRoot _ _ ih => exact ih

/-- Where nothing is recorded in the end, nothing was before. -/
theorem Reaches.errors_eq_empty {s t : State} (h : s.Reaches t) (clean : t.errors = #[]) :
    s.errors = #[] := by
  have shorter := h.errors_extend
  rw [clean] at shorter
  exact Array.toList_inj.1 (List.prefix_nil.1 shorter)

@[simp]
theorem ast_advance (s : State) : s.advance.ast = s.ast := by
  unfold advance
  split <;> rfl

/-- Nodes are only ever added, and keep their constructs and tokens. -/
theorem Reaches.faces_extend {s t : State} (h : s.Reaches t) : s.ast.faces <+: t.ast.faces := by
  induction h with
  | refl => exact List.prefix_refl _
  | advance _ ih => rwa [ast_advance]
  | record _ _ ih => exact ih
  | @alloc t construct token _ ih =>
    refine ih.trans ?_
    show t.ast.faces <+: (t.ast.alloc construct token).2.faces
    rw [Ast.faces_alloc]
    exact List.prefix_append _ _
  | pushRoot _ _ ih => exact ih

/-- If nothing is recorded between two states, nothing is recorded on the way. -/
theorem Reaches.errors_eq {s t u : State} (h : s.Reaches t) (k : t.Reaches u)
    (same : u.errors = s.errors) : t.errors = s.errors := by
  have up := h.errors_extend
  have down := k.errors_extend
  rw [same] at down
  exact Array.toList_inj.1 (down.eq_of_length (Nat.le_antisymm down.length_le up.length_le))

theorem current_advance (s : State) : s.advance.current = s.peek := by
  obtain ⟨file, limit, ahead, endLine, ast, errors⟩ := s
  match ahead with
  | [] => rfl
  | [_] => rfl
  | _ :: _ :: _ => rfl

/-- The limit of nesting stays the same. -/
theorem Reaches.limit_eq {s t : State} (h : s.Reaches t) : t.limit = s.limit := by
  induction h with
  | refl => rfl
  | advance _ ih =>
    refine Eq.trans ?_ ih
    unfold State.advance
    split <;> rfl
  | record _ _ ih => exact ih
  | alloc _ _ _ ih => exact ih
  | pushRoot _ _ ih => exact ih

@[simp]
theorem file_advance (s : State) : s.advance.file = s.file := by
  unfold advance
  split <;> rfl

/-- The name of the file stays the same. -/
theorem Reaches.file_eq {s t : State} (h : s.Reaches t) : t.file = s.file := by
  induction h with
  | refl => rfl
  | advance _ ih => rwa [file_advance]
  | record _ _ ih => exact ih
  | alloc _ _ _ ih => exact ih
  | pushRoot _ _ ih => exact ih

/-- What is recorded when the current token is passed: the fault of the token that is read. -/
def noted (s : State) : List Diagnostic :=
  (s.ahead.tail[1]?.bind (·.diagnostic? s.file)).toList

theorem toList_errors_advance (s : State) :
    s.advance.errors.toList = s.errors.toList ++ s.noted := by
  unfold noted advance
  cases s.ahead with
  | nil => simp
  | cons x rest => exact toList_noteFault s.file rest[1]? s.errors

end State

variable {α β σ κ : Type}

/-- From `s` the parser ends with a value and a state of which `post` holds. -/
def Ensures (p : Parser α) (s : State) (post : α → State → Prop) : Prop :=
  post (p.run s).1 (p.run s).2

theorem Ensures.bind {p : Parser α} {f : α → Parser β} {s : State} {mid : α → State → Prop}
    {post : β → State → Prop} (h : p.Ensures s mid)
    (next : ∀ a t, s.Reaches t → mid a t → (f a).Ensures t post) :
    (p >>= f).Ensures s post :=
  next _ _ (p.reaches s) h

theorem Ensures.imp {p : Parser α} {s : State} {post post' : α → State → Prop}
    (h : p.Ensures s post) (weaker : ∀ a t, s.Reaches t → post a t → post' a t) :
    p.Ensures s post' :=
  weaker _ _ (p.reaches s) h

/-! ### Loops -/

/-- What a round says when it is done, or carries over from the rounds after it, the loop
says. -/
theorem loop_rule {round : σ → Parser (Round σ β)} {progress : Progresses round}
    {motive : σ → State → β → State → Prop}
    (step : ∀ x s, (round x).Ensures s fun r t =>
      match r with
      | .done b => motive x s b t
      | .again y => ∀ b u, t.Reaches u → motive y t b u → motive x s b u)
    (x : σ) (s : State) : (loop round progress x).Ensures s (motive x s) := by
  show motive x s (runLoop round progress x s).1 (runLoop round progress x s).2
  fun_induction runLoop round progress x s with
  | case1 x s b t run =>
    have done := step x s
    rwa [Ensures, run] at done
  | case2 x s y t run ih =>
    have again := step x s
    rw [Ensures, run] at again
    exact again _ _ (reaches_runLoop round progress y t) ih

/-- What holds before a `foldWhile` and is kept by its body holds after it, when the test
gives nothing more. -/
theorem Ensures.foldWhile {test : State → Option κ} {body : κ → σ → Parser σ}
    {moves : ∀ k x s, test s = some k → (body k x).Moves s} {x : σ} {s : State}
    (inv : σ → State → Prop) (start : inv x s)
    (step : ∀ k x s, test s = some k → inv x s → (body k x).Ensures s inv) :
    (foldWhile test body moves x).Ensures s fun y t => inv y t ∧ test t = none := by
  refine loop_rule (motive := fun x s y t => inv x s → inv y t ∧ test t = none) ?_ x s start
  intro x s
  unfold Ensures
  rw [whileRound, run_bind, run_look]
  cases given : test s with
  | none => exact fun holds => ⟨holds, given⟩
  | some k => exact fun _ _ _ rest holds => rest (step k x s given holds)

/-- A `foldWhile` whose test gives nothing. -/
theorem ensures_foldWhile_done {test : State → Option κ} {body : κ → σ → Parser σ}
    {moves : ∀ k x s, test s = some k → (body k x).Moves s} {x : σ} {s : State}
    {post : σ → State → Prop} (given : test s = none) (holds : post x s) :
    (foldWhile test body moves x).Ensures s post := by
  rw [foldWhile_eq]
  unfold Ensures
  rw [run_bind, run_look]
  dsimp only
  rwa [given]

/-- A `foldWhile` whose test gives something goes through its body and on. -/
theorem ensures_foldWhile_again {test : State → Option κ} {body : κ → σ → Parser σ}
    {moves : ∀ k x s, test s = some k → (body k x).Moves s} {x : σ} {k : κ} {s : State}
    {post : σ → State → Prop} (given : test s = some k)
    (next : (body k x >>= foldWhile test body moves).Ensures s post) :
    (foldWhile test body moves x).Ensures s post := by
  rw [foldWhile_eq]
  unfold Ensures
  rw [run_bind, run_look]
  dsimp only
  rwa [given]

end Parser

namespace Attempt

open Viper.Parser

variable {α β κ : Type}

/-- From `s` the attempt ends with a value and a state of which `good` holds, or with an
error and a state of which `bad` holds. -/
def Ensures (p : Attempt α) (s : State) (good : α → State → Prop)
    (bad : SyntaxError → State → Prop) : Prop :=
  p.run.Ensures s fun r t =>
    match r with
    | .ok a => good a t
    | .error e => bad e t

variable {s : State} {good : α → State → Prop} {bad : SyntaxError → State → Prop}

theorem ensures_lift {p : Parser α} (h : p.Ensures s good) :
    (liftM p : Attempt α).Ensures s good bad := h

/-- Looking at the state changes nothing. -/
theorem ensures_look_bind {g : State → κ} {f : κ → Attempt α} (next : (f (g s)).Ensures s good bad) :
    (liftM (look g) >>= f : Attempt α).Ensures s good bad := next

theorem Ensures.bind {p : Attempt α} {f : α → Attempt β} {good' : β → State → Prop}
    {bad' : SyntaxError → State → Prop} (h : p.Ensures s good bad)
    (next : ∀ a t, s.Reaches t → good a t → (f a).Ensures t good' bad')
    (fail : ∀ e t, s.Reaches t → bad e t → bad' e t) : (p >>= f).Ensures s good' bad' := by
  unfold Ensures Parser.Ensures at h ⊢
  have reached := p.run.reaches s
  rw [run_bind]
  cases outcome : (p.run.run s).1 with
  | ok a =>
    rw [outcome] at h
    exact next a _ reached h
  | error e =>
    rw [outcome] at h
    exact fail e _ reached h

theorem Ensures.imp {p : Attempt α} {good' : α → State → Prop}
    {bad' : SyntaxError → State → Prop} (h : p.Ensures s good bad)
    (onOk : ∀ a t, s.Reaches t → good a t → good' a t)
    (onError : ∀ e t, s.Reaches t → bad e t → bad' e t) : p.Ensures s good' bad' := by
  refine Parser.Ensures.imp h ?_
  intro r t reached
  cases r with
  | ok a => exact onOk a t reached
  | error e => exact onError e t reached

/-- What is said of the value and of the error alike, is said of the outcome. -/
theorem Ensures.outcome {p : Attempt α} {post : Except SyntaxError α → State → Prop}
    (h : p.Ensures s (fun a => post (.ok a)) fun e => post (.error e)) : p.run.Ensures s post := by
  refine Parser.Ensures.imp h ?_
  intro r t _
  cases r with
  | ok a => exact id
  | error e => exact id

/-- The rule for a `foldWhile` whose body can fail. -/
theorem Ensures.foldWhile {test : State → Option κ} {body : κ → α → Attempt α}
    {moves : ∀ k x s, test s = some k → (body k x).run.Moves s} {x : α}
    (inv : α → State → Prop) (start : inv x s)
    (step : ∀ k x s, test s = some k → inv x s → (body k x).Ensures s inv bad) :
    (foldWhile test body moves x).Ensures s (fun y t => inv y t ∧ test t = none) bad := by
  refine loop_rule (motive := fun x s (r : Except SyntaxError α) t => inv x s →
    match r with
    | .ok y => inv y t ∧ test t = none
    | .error e => bad e t) ?_ x s start
  intro x s
  unfold Parser.Ensures
  rw [whileRound, Parser.run_bind, run_look]
  cases given : test s with
  | none => exact fun holds => ⟨holds, given⟩
  | some k =>
    have kept := step k x s given
    unfold Ensures Parser.Ensures at kept
    dsimp only
    rw [Parser.run_bind]
    rcases outcome : (body k x).run.run s with ⟨r, t⟩
    rw [outcome] at kept
    cases r with
    | ok y => exact fun _ _ _ rest holds => rest (kept holds)
    | error e => exact kept

end Attempt

/-! ### Kinds of tokens -/

theorem ahead_ne_nil_of_kind {s : Parser.State} {kind : TokenKind} (here : s.current.kind = kind)
    (isToken : kind ≠ .eof) : s.ahead ≠ [] :=
  Parser.State.ahead_ne_nil (here ▸ isToken)

/-- The kinds of token that do not go on with a name. -/
def TokenKind.endsOperand : TokenKind → Bool
  | .openParen | .openBracket | .dot => false
  | _ => true

theorem TokenKind.endsOperand_of_precedence? {kind : TokenKind}
    (h : kind.precedence?.isSome = true) : kind.endsOperand = true := by
  revert h
  cases kind <;> decide

theorem Statement.current_of_beforeBoundary? {s : Parser.State} {token : Token}
    (h : beforeBoundary? s = some token) : s.current = token := by
  unfold beforeBoundary? at h
  split at h
  · cases h
  · exact Option.some.inj h

/-! ### Number literals -/

namespace Expression

open Viper.Parser

variable {s : State} {α : Type} {read? : String → Option α} {make : α → Construct}

theorem numeral_of_some {value : α} (h : read? s.current.text = some value) :
    (numeral read? make).run.run s =
      (.ok s.advance.ast.size, (s.advance.alloc (make value) s.current).2) := by
  rw [numeral, Attempt.run_bind, Attempt.run_lift, run_advance]
  dsimp only
  rw [h]
  rfl

theorem numeral_of_none (h : read? s.current.text = none) :
    (numeral read? make).run.run s =
      (.error ⟨.numberTooLarge s.current.text, s.current.line⟩, s.advance) := by
  rw [numeral, Attempt.run_bind, Attempt.run_lift, run_advance]
  dsimp only
  rw [h]
  rfl

end Expression

/-! ### The items of a file -/

namespace Item

open Viper.Parser

variable (inner : Statement.Inner)

/-- The items up to the end of the file; `skipping` tells whether the token before started none. -/
def items (skipping : Bool) : Parser Bool :=
  foldWhile beforeEnd? (programRound inner) (moves_programRound inner) skipping

theorem program_eq : program inner = items inner false >>= fun _ => pure () := rfl

variable {inner} {s : State}

theorem current_of_beforeEnd? {token : Token} (h : beforeEnd? s = some token) :
    s.current = token ∧ token.kind ≠ .eof := by
  unfold beforeEnd? at h
  split at h
  · cases h
  · rename_i other
    cases h
    exact ⟨rfl, other⟩

theorem items_of_end (skipping : Bool) (h : beforeEnd? s = none) :
    (items inner skipping).run s = (skipping, s) := by
  rw [items, foldWhile_eq, run_bind, run_look]
  simp only [h]
  rfl

theorem items_of_token {token : Token} (skipping : Bool) (h : beforeEnd? s = some token) :
    (items inner skipping).run s = (programRound inner token skipping >>= items inner).run s := by
  rw [items, foldWhile_eq, run_bind, run_look]
  simp only [h]
  rfl

end Item
end Viper
