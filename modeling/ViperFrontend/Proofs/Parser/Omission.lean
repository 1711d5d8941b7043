/-
# Tokens that are left out

A `;` that is missing before a `}` or at the end of a file, and a `}` that is missing at the end of a
file, are reported and nothing else happens: the token that is there is one that recovery never passes,
so the construct ends as if nothing were missing. `Omits` says that a list of tokens is another one with
such tokens left out, and with which errors.

Two parses are compared, one that records nothing and one of the same tokens with some left out. They
stand at the same token, or the first one stands at a token that the second one lacks
(`State.Lacks.view`). No construct starts there, so all that the first one can do with that token is to
require it. Then it passes the token and the other one records that it is missing. What follows a
`return` is the exception, for a `;` there stands in place of a value.

`Parser.Mends` says of a parser that it does the same in both parses, if nothing is recorded in the first
one, and `Parser.Blocked` that something is recorded.

Key definitions: `Omits`, `Parser.State.Lacks`, `Parser.Blocked`, `Parser.Mends`, `Attempt.Mends`.
Key theorems: `Parser.State.Lacks.view`, `Parser.mends_eat_bind`, `Parser.mends_run_bind`,
`Parser.mends_loop`, `Attempt.mends_foldWhile`.
-/
import ViperFrontend.Proofs.Parser.Closing

namespace Viper

namespace TokenKind

/-- The tokens that may be left out. -/
def isCloser : TokenKind → Bool
  | .semicolon | .closeCurly => true
  | _ => false

/-- The tokens that no construct starts with and that only end what stands before them. -/
def isStop : TokenKind → Bool
  | .semicolon | .closeCurly | .eof => true
  | _ => false

variable {kind : TokenKind}

theorem isStop_of_isCloser (h : kind.isCloser = true) : kind.isStop = true := by
  revert h
  cases kind <;> decide

theorem isStop_of_isBoundary (h : kind.isBoundary = true) : kind.isStop = true := by
  revert h
  cases kind <;> decide

/-- None of these goes on with a list or ends it. -/
theorem not_list_of_isCloser (h : kind.isCloser = true) :
    kind ≠ .comma ∧ ¬ (kind = .closeParen ∨ kind = .eof) := by
  revert h
  cases kind <;> decide

theorem isStop_of_precedence? {p : Precedence} (h : kind.precedence? = some p) :
    kind.isStop = false := by
  revert h
  cases kind <;> simp [precedence?, isStop]

theorem precedence?_of_isStop (h : kind.isStop = true) : kind.precedence? = none := by
  revert h
  cases kind <;> simp [precedence?, isStop]

theorem endsOperand_of_isStop (h : kind.isStop = true) : kind.endsOperand = true := by
  revert h
  cases kind <;> decide

end TokenKind

open Viper.Parser

/-- The first of some tokens, or the end of the file. -/
def Scanned.upcoming (endLine : UInt32) : List Scanned → Token
  | [] => .endOfFile endLine
  | x :: _ => x.token

theorem Scanned.kind_upcoming (line line' : UInt32) (xs : List Scanned) :
    (upcoming line xs).kind = (upcoming line' xs).kind := by
  cases xs <;> rfl

/-- The second list of tokens, with the file ending on a line, is the first with closing tokens left out.
What stands in place of each is a boundary of another kind, and that it is there is an error. No `;` is
left out behind a `return`. -/
inductive Omits (endLine : UInt32) : List Scanned → List Scanned → List SyntaxError → Prop
  | nil : Omits endLine [] [] []
  | keep {x : Scanned} {xs ys : List Scanned} {es : List SyntaxError} (rest : Omits endLine xs ys es)
      (value : x.token.kind = .kwReturn → (Scanned.upcoming endLine xs).kind = .semicolon →
        (Scanned.upcoming endLine ys).kind = .semicolon) :
      Omits endLine (x :: xs) (x :: ys) es
  | leaveOut {x : Scanned} {xs ys : List Scanned} {es : List SyntaxError} (rest : Omits endLine xs ys es)
      (closes : x.token.kind.isCloser = true)
      (found : (Scanned.upcoming endLine ys).kind.isBoundary = true)
      (other : (Scanned.upcoming endLine ys).kind ≠ x.token.kind) :
      Omits endLine (x :: xs) ys (unexpected x.token.kind (Scanned.upcoming endLine ys) :: es)

namespace Omits

variable {endLine : UInt32} {xs ys zs : List Scanned} {es : List SyntaxError}

theorem eq_nil (h : Omits endLine [] ys es) : ys = [] ∧ es = [] := by
  cases h
  exact ⟨rfl, rfl⟩

theorem refl (endLine : UInt32) (xs : List Scanned) : Omits endLine xs xs [] := by
  induction xs with
  | nil => exact .nil
  | cons x xs ih => exact .keep ih fun _ here => here

/-- Tokens may stand before those of which some are left out. -/
theorem append (h : Omits endLine xs ys es) (zs : List Scanned)
    (value : ∀ last ∈ zs.getLast?, last.token.kind = .kwReturn →
      (Scanned.upcoming endLine xs).kind = .semicolon →
      (Scanned.upcoming endLine ys).kind = .semicolon) : Omits endLine (zs ++ xs) (zs ++ ys) es := by
  induction zs with
  | nil => exact h
  | cons z zs ih =>
    cases zs with
    | nil => exact .keep h (value z rfl)
    | cons z' zs => exact .keep (ih value) fun _ here => here

/-- Tokens of the same kind may be left out one behind the other. -/
theorem replicate (kind : TokenKind) (closes : kind.isCloser = true)
    (found : (Scanned.upcoming endLine ys).kind.isBoundary = true)
    (other : (Scanned.upcoming endLine ys).kind ≠ kind) (same : ∀ x ∈ zs, x.token.kind = kind)
    (h : Omits endLine xs ys es) : Omits endLine (zs ++ xs) ys
      (List.replicate zs.length (unexpected kind (Scanned.upcoming endLine ys)) ++ es) := by
  induction zs with
  | nil => exact h
  | cons z zs ih =>
    obtain ⟨rfl, others⟩ := List.forall_mem_cons.1 same
    exact .leaveOut (ih others) closes found other

end Omits

namespace Parser
namespace State

theorem current_eq_upcoming (s : State) : s.current = Scanned.upcoming s.endLine s.ahead := by
  unfold current
  cases s.ahead <;> rfl

theorem advance_of_ahead_eq_nil {s : State} (none : s.ahead = []) : s.advance = s := by
  unfold advance
  rw [none]

theorem endLine_advance (s : State) : s.advance.endLine = s.endLine :=
  Reaches.refl.advance.endLine_eq

/-- Passing tokens with whose texts nothing is wrong records nothing. -/
theorem errors_advance_of_legal {s : State} (legal : ∀ x ∈ s.ahead, x.fault? = none) :
    s.advance.errors = s.errors := by
  apply Array.toList_inj.1
  rw [toList_errors_advance, noted]
  cases second : s.ahead.tail[1]? with
  | none => simp
  | some x =>
    have mem : x ∈ s.ahead := List.mem_of_mem_tail (List.mem_of_getElem? second)
    simp [Scanned.diagnostic?, legal x mem]

/-- The second parse stands where the first one does, with tokens left out before it and behind. The tree
is the same, and what it has recorded and what it will record are the diagnostics `told`. -/
structure Lacks (told : List Diagnostic) (s s' : State) : Prop where
  ast_eq : s'.ast = s.ast
  legal : ∀ x ∈ s'.ahead, x.fault? = none
  missing : ∃ es, Omits s'.endLine s.ahead s'.ahead es ∧
    s'.errors.toList ++ es.map (·.diagnostic s'.file) = told

variable {told : List Diagnostic} {s s' : State}

/-- Both parses pass a token. -/
theorem Lacks.advance_of (h : Lacks told s s') {xs ys : List Scanned} {es : List SyntaxError}
    (here : s.ahead.tail = xs) (here' : s'.ahead.tail = ys) (rest : Omits s'.endLine xs ys es)
    (errors : s'.errors.toList ++ es.map (·.diagnostic s'.file) = told) :
    Lacks told s.advance s'.advance where
  ast_eq := by rw [ast_advance, ast_advance, h.ast_eq]
  legal x mem := by
    rw [ahead_advance] at mem
    exact h.legal x (List.mem_of_mem_tail mem)
  missing := by
    refine ⟨es, ?_, ?_⟩
    · rwa [ahead_advance, ahead_advance, endLine_advance, here, here']
    · rwa [errors_advance_of_legal h.legal, file_advance]

/-- **Both parses stand at the same token**, or both at the end, or the second one lacks the token at
which the first one stands, and records that. -/
theorem Lacks.view (h : Lacks told s s') :
    (s'.current = s.current ∧ Lacks told s.advance s'.advance ∧
      (s.current.kind = .kwReturn → s.advance.current.kind = .semicolon →
        s'.advance.current.kind = .semicolon)) ∨
    (s.current.kind = .eof ∧ s'.current.kind = .eof ∧ Lacks told s.advance s'.advance) ∨
    (s.current.kind.isCloser = true ∧ s'.current.kind.isBoundary = true ∧
      s'.current.kind ≠ s.current.kind ∧
      Lacks told s.advance (s'.record (unexpected s.current.kind s'.current))) := by
  obtain ⟨es, omits, errors⟩ := h.missing
  rw [current_eq_upcoming s, current_eq_upcoming s']
  generalize ahead : s.ahead = xs at omits
  generalize ahead' : s'.ahead = ys at omits
  cases omits with
  | nil =>
    right; left
    rw [advance_of_ahead_eq_nil ahead, advance_of_ahead_eq_nil ahead']
    exact ⟨rfl, rfl, h⟩
  | @keep x xs ys es rest value =>
    left
    have onward := h.advance_of (congrArg List.tail ahead) (congrArg List.tail ahead') rest errors
    refine ⟨rfl, onward, fun returns => ?_⟩
    rw [current_eq_upcoming, current_eq_upcoming, ahead_advance, ahead_advance, ahead, ahead',
      Scanned.kind_upcoming _ s'.endLine, Scanned.kind_upcoming s'.advance.endLine s'.endLine]
    exact value returns
  | @leaveOut x xs ys es rest closes found other =>
    right; right
    refine ⟨closes, found, other, ?_, h.legal, es, ?_, ?_⟩
    · exact h.ast_eq.trans (ast_advance s).symm
    · show Omits s'.endLine s.advance.ahead s'.ahead es
      rwa [ahead_advance, ahead, ahead']
    · rw [toList_errors_record, List.append_assoc]
      exact errors

/-- At a token that starts or goes on with a construct both parses stand together. -/
theorem Lacks.together (h : Lacks told s s') (go : s.current.kind.isStop = false) :
    s'.current = s.current ∧ Lacks told s.advance s'.advance := by
  rcases h.view with ⟨same, onward, -⟩ | ⟨ended, -⟩ | ⟨closes, -⟩
  · exact ⟨same, onward⟩
  · rw [ended] at go
    cases go
  · rw [TokenKind.isStop_of_isCloser closes] at go
    cases go

/-- Where the first parse is stopped, so is the second. -/
theorem Lacks.isStop (h : Lacks told s s') (stop : s.current.kind.isStop = true) :
    s'.current.kind.isStop = true := by
  rcases h.view with ⟨same, -⟩ | ⟨-, ended, -⟩ | ⟨-, boundary, -⟩
  · rwa [same]
  · rw [ended]
    rfl
  · exact TokenKind.isStop_of_isBoundary boundary

/-- The current tokens are the same, or both stop what stands before them. -/
theorem Lacks.current_eq_or (h : Lacks told s s') :
    s'.current = s.current ∨
      s.current.kind.isStop = true ∧ s'.current.kind.isStop = true := by
  cases stop : s.current.kind.isStop with
  | false => exact .inl (h.together stop).1
  | true => exact .inr ⟨rfl, h.isStop stop⟩

theorem Lacks.alloc (h : Lacks told s s') (construct : Construct) (token : Token) :
    (s'.alloc construct token).1 = (s.alloc construct token).1 ∧
      Lacks told (s.alloc construct token).2 (s'.alloc construct token).2 := by
  refine ⟨?_, ?_, h.legal, h.missing⟩
  · show (s'.ast.alloc construct token).1 = (s.ast.alloc construct token).1
    rw [h.ast_eq]
  · show (s'.ast.alloc construct token).2 = (s.ast.alloc construct token).2
    rw [h.ast_eq]

theorem Lacks.pushRoot (h : Lacks told s s') (id : NodeId) :
    Lacks told (s.pushRoot id) (s'.pushRoot id) :=
  ⟨congrArg (·.pushRoot id) h.ast_eq, h.legal, h.missing⟩

end State

variable {α β σ κ : Type} {s : State}

/-! ### Parsers that record something -/

/-- From `s` something is recorded, or was before. -/
def Blocked (p : Parser α) (s : State) : Prop :=
  (p.run s).2.errors ≠ #[]

theorem Blocked.bind {p : Parser α} (h : p.Blocked s) (f : α → Parser β) : (p >>= f).Blocked s :=
  fun clean => h (((f _).reaches _).errors_eq_empty clean)

theorem blocked_look_bind {g : State → κ} {f : κ → Parser β} (next : (f (g s)).Blocked s) :
    (look g >>= f).Blocked s := next

theorem blocked_record (e : SyntaxError) : (record e).Blocked s := by
  simp [Blocked, record, State.record]

theorem blocked_eat {expected : TokenKind} (other : s.current.kind ≠ expected) :
    (eat expected).Blocked s :=
  fun clean => other (kind_eq_of_eat clean)

/-! ### Parsers that do the same with tokens left out -/

/-- If nothing is recorded from `s` on, the parser does the same where tokens are left out. -/
def Mends (p : Parser α) (s : State) : Prop :=
  ∀ told s', State.Lacks told s s' → (p.run s).2.errors = #[] →
    (p.run s').1 = (p.run s).1 ∧ State.Lacks told (p.run s).2 (p.run s').2

theorem Blocked.mends {p : Parser α} (h : p.Blocked s) : p.Mends s :=
  fun _ _ _ clean => absurd clean h

/-- What follows a parser may use the state in which it ends. -/
theorem Mends.bind_run {p : Parser α} {f : α → Parser β} (h : p.Mends s)
    (next : (p.run s).2.errors = #[] → (f (p.run s).1).Mends (p.run s).2) : (p >>= f).Mends s := by
  intro told s' lacks clean
  have before := ((f (p.run s).1).reaches (p.run s).2).errors_eq_empty clean
  obtain ⟨value, after⟩ := h told s' lacks before
  rw [run_bind, run_bind, value]
  exact next before told _ after clean

theorem Mends.bind {p : Parser α} {f : α → Parser β} (h : p.Mends s)
    (next : ∀ a t, (f a).Mends t) : (p >>= f).Mends s :=
  h.bind_run fun _ => next _ _

theorem mends_pure (a : α) : (pure a : Parser α).Mends s :=
  fun _ _ lacks _ => ⟨rfl, lacks⟩

theorem mends_alloc (construct : Construct) (token : Token) : (alloc construct token).Mends s :=
  fun _ _ lacks _ => lacks.alloc construct token

theorem mends_pushRoot (id : NodeId) : (pushRoot id).Mends s :=
  fun _ _ lacks _ => ⟨rfl, lacks.pushRoot id⟩

theorem mends_record (e : SyntaxError) : (record e).Mends s :=
  (blocked_record e).mends

/-- A token that stops nothing is passed in both parses. -/
theorem mends_advance (go : s.current.kind.isStop = false) : advance.Mends s :=
  fun _ _ lacks _ => lacks.together go

/-- What both parses do with what they see is the same, or nothing can be made of it. -/
theorem mends_look_bind {g : State → κ} {f : κ → Parser β}
    (same : ∀ told s', State.Lacks told s s' → f (g s') = f (g s) ∨ (f (g s)).Blocked s)
    (next : (f (g s)).Mends s) : (look g >>= f).Mends s := by
  intro told s' lacks clean
  rcases same told s' lacks with same | blocked
  · rw [run_bind, run_look, same]
    exact next told s' lacks clean
  · exact absurd clean blocked

/-- A token that stops nothing is seen in both parses. -/
theorem mends_current_bind {f : Token → Parser β} (go : s.current.kind.isStop = false)
    (next : (f s.current).Mends s) : (current >>= f).Mends s :=
  mends_look_bind (fun _ _ lacks => .inl (congrArg f (lacks.together go).1)) next

/-- Nothing can be made of a token that may be left out, and all ends of a file are alike. -/
theorem mends_next_bind {f : Token → Parser β}
    (blocked : s.current.kind.isCloser = true → (f s.current).Blocked s)
    (ended : ∀ token, s.current.kind = .eof → token.kind = .eof → f token = f s.current)
    (next : (f s.current).Mends s) : (current >>= f).Mends s := by
  refine mends_look_bind (fun told s' lacks => ?_) next
  rcases lacks.view with ⟨same, -⟩ | ⟨isEnd, isEnd', -⟩ | ⟨closes, -⟩
  · exact .inl (congrArg f same)
  · exact .inl (ended s'.current isEnd isEnd')
  · exact .inr (blocked closes)

/-- **A token that is required** is there in the first parse, and in the second one it is there or it is
recorded that it is missing. -/
theorem lacks_eat {told : List Diagnostic} {s' : State} {expected : TokenKind}
    (lacks : State.Lacks told s s') (here : s.current.kind = expected) :
    State.Lacks told s.advance ((eat expected).run s').2 := by
  rcases lacks.view with ⟨same, onward, -⟩ | ⟨ended, ended', onward⟩ | ⟨-, boundary, other, onward⟩
  · rwa [eat_of_kind (same ▸ here)]
  · rwa [eat_of_kind (ended'.trans (ended.symm.trans here))]
  · rw [here] at other onward
    have run : ((eat expected).run s').2 = s'.record (unexpected expected s'.current) := by
      simp [eat, expect, record, other, passOffending, boundary]
    rwa [run]

/-- The token that is required is not used. -/
theorem mends_eat_bind {expected : TokenKind} {p : Parser β} (next : ∀ t, p.Mends t) :
    (eat expected >>= fun _ => p).Mends s := by
  intro told s' lacks clean
  rw [run_bind] at clean
  have here := kind_eq_of_eat ((p.reaches _).errors_eq_empty clean)
  rw [eat_of_kind here] at clean
  rw [run_bind, run_bind, eat_of_kind here]
  exact next _ told _ (lacks_eat lacks here) clean

/-- A token that is used is there in both parses. -/
theorem mends_eat {expected : TokenKind} (go : expected.isStop = false) : (eat expected).Mends s := by
  intro told s' lacks clean
  have here := kind_eq_of_eat clean
  obtain ⟨same, onward⟩ := lacks.together (here ▸ go)
  rw [eat_of_kind here, eat_of_kind (same ▸ here)]
  exact ⟨same, onward⟩

theorem mends_loop {round : σ → Parser (Round σ β)} {progress : Progresses round}
    (step : ∀ x s, (round x).Mends s) (x : σ) : (loop round progress x).Mends s := by
  intro told s' lacks clean
  refine loop_rule (motive := fun x s b t => ∀ s', State.Lacks told s s' → t.errors = #[] →
    ((loop round progress x).run s').1 = b ∧
      State.Lacks told t ((loop round progress x).run s').2) ?_ x s s' lacks clean
  intro x s
  have mends := step x s told
  unfold Ensures
  rcases run : (round x).run s with ⟨r, t⟩
  rw [run] at mends
  cases r with
  | done b =>
    intro s' lacks clean
    obtain ⟨value, after⟩ := mends s' lacks clean
    rw [loop_eq, run_bind, value]
    exact ⟨rfl, after⟩
  | again y =>
    intro b u reached rest s' lacks clean
    obtain ⟨value, after⟩ := mends s' lacks (reached.errors_eq_empty clean)
    rw [loop_eq, run_bind, value]
    exact rest _ after clean

theorem mends_foldWhile {test : State → Option κ} {body : κ → σ → Parser σ}
    {moves : ∀ k x s, test s = some k → (body k x).Moves s}
    (same : ∀ s told s', State.Lacks told s s' →
      test s' = test s ∨ ∃ k, test s = some k ∧ ∀ x, (body k x).Blocked s)
    (step : ∀ k x s, test s = some k → (body k x).Mends s) (x : σ) :
    (foldWhile test body moves x).Mends s := by
  refine mends_loop (fun x s => ?_) x
  unfold whileRound
  refine mends_look_bind (fun told s' lacks => ?_) ?_
  · rcases same s told s' lacks with same | ⟨k, given, blocked⟩
    · exact .inl (by rw [same])
    · right
      rw [given]
      exact (blocked x).bind _
  · cases given : test s with
    | none => exact mends_pure _
    | some k => exact (step k x s given).bind fun _ _ => mends_pure _

end Parser

namespace Attempt

open Viper.Parser

variable {α β κ : Type} {s : State}

/-- From `s` the attempt fails, or something is recorded, or was before. -/
def Blocked (p : Attempt α) (s : State) : Prop :=
  ∀ a t, p.run.run s = (.ok a, t) → t.errors ≠ #[]

/-- If the attempt succeeds from `s` and nothing is recorded, it does the same where tokens are left
out. -/
def Mends (p : Attempt α) (s : State) : Prop :=
  ∀ told s', State.Lacks told s s' → ∀ a t, p.run.run s = (.ok a, t) → t.errors = #[] →
    ∃ t', p.run.run s' = (.ok a, t') ∧ State.Lacks told t t'

theorem Blocked.mends {p : Attempt α} (h : p.Blocked s) : p.Mends s :=
  fun _ _ _ a t run clean => absurd clean (h a t run)

theorem Blocked.bind {p : Attempt α} (h : p.Blocked s) (f : α → Attempt β) :
    (p >>= f).Blocked s := by
  intro b u run clean
  obtain ⟨a, t, first, second⟩ := ok_of_bind run
  have reached := (f a).run.reaches t
  rw [second] at reached
  exact h a t first (reached.errors_eq_empty clean)

theorem blocked_lift {p : Parser α} (h : p.Blocked s) : (liftM p : Attempt α).Blocked s := by
  rintro a t run
  cases run
  exact h

theorem blocked_throw (e : SyntaxError) : (throw e : Attempt α).Blocked s := nofun

theorem blocked_look_bind {g : State → κ} {f : κ → Attempt β} (next : (f (g s)).Blocked s) :
    (liftM (look g) >>= f : Attempt β).Blocked s := next

/-- What is thrown in the end, whatever came before. -/
theorem blocked_bind_throw (p : Attempt α) (e : SyntaxError) :
    (p >>= fun _ => throw e : Attempt β).Blocked s := by
  intro b u run
  obtain ⟨a, t, -, second⟩ := ok_of_bind run
  cases second

theorem Mends.bind {p : Attempt α} {f : α → Attempt β} (h : p.Mends s)
    (next : ∀ a t, (f a).Mends t) : (p >>= f).Mends s := by
  intro told s' lacks b u run clean
  obtain ⟨a, t, first, second⟩ := ok_of_bind run
  have reached := (f a).run.reaches t
  rw [second] at reached
  obtain ⟨t', first', after⟩ := h told s' lacks a t first (reached.errors_eq_empty clean)
  rw [run_bind_of_ok first']
  exact next a t told t' after b u second clean

theorem mends_lift {p : Parser α} (h : p.Mends s) : (liftM p : Attempt α).Mends s := by
  intro told s' lacks a t run clean
  cases run
  obtain ⟨value, after⟩ := h told s' lacks clean
  exact ⟨_, congrArg (fun a => (Except.ok a, (p.run s').2)) value, after⟩

theorem mends_pure (a : α) : (pure a : Attempt α).Mends s :=
  mends_lift (Parser.mends_pure a)

theorem mends_look_bind {g : State → κ} {f : κ → Attempt β}
    (same : ∀ told s', State.Lacks told s s' → f (g s') = f (g s)) (next : (f (g s)).Mends s) :
    (liftM (look g) >>= f : Attempt β).Mends s := by
  intro told s' lacks b u run clean
  obtain ⟨t', run', after⟩ := next told s' lacks b u run clean
  refine ⟨t', ?_, after⟩
  rw [← same told s' lacks] at run'
  exact run'

theorem mends_current_bind {f : Token → Attempt β} (go : s.current.kind.isStop = false)
    (next : (f s.current).Mends s) : (liftM current >>= f : Attempt β).Mends s :=
  mends_look_bind (fun _ _ lacks => congrArg f (lacks.together go).1) next

theorem mends_lift_bind {p : Parser α} {f : α → Attempt β} (h : p.Mends s)
    (next : (f (p.run s).1).Mends (p.run s).2) : (liftM p >>= f : Attempt β).Mends s := by
  intro told s' lacks b u run clean
  have reached := (f (p.run s).1).run.reaches (p.run s).2
  rw [run_bind, run_lift] at run
  rw [show (f (p.run s).1).run.run (p.run s).2 = (.ok b, u) from run] at reached
  obtain ⟨value, after⟩ := h told s' lacks (reached.errors_eq_empty clean)
  obtain ⟨t', run', last⟩ := next told _ after b u run clean
  refine ⟨t', ?_, last⟩
  rw [run_bind, run_lift, value]
  exact run'

theorem mends_advance_bind {f : Token → Attempt β} (go : s.current.kind.isStop = false)
    (next : (f s.current).Mends s.advance) : (liftM advance >>= f : Attempt β).Mends s :=
  mends_lift_bind (mends_advance go) next

theorem mends_eat_bind {expected : TokenKind} {p : Attempt β} (next : ∀ t, p.Mends t) :
    (liftM (eat expected) >>= fun _ => p : Attempt β).Mends s := by
  intro told s' lacks b u run clean
  have reached := p.run.reaches ((eat expected).run s).2
  rw [run_bind, run_lift] at run
  rw [show (p.run.run ((eat expected).run s).2) = (.ok b, u) from run] at reached
  have here := kind_eq_of_eat (reached.errors_eq_empty clean)
  rw [eat_of_kind here] at run
  exact next _ told _ (lacks_eat lacks here) b u run clean

theorem mends_foldWhile {test : State → Option κ} {body : κ → α → Attempt α}
    {moves : ∀ k x s, test s = some k → (body k x).run.Moves s}
    (same : ∀ s told s', State.Lacks told s s' → test s' = test s)
    (step : ∀ k x s, test s = some k → (body k x).Mends s) (x : α) :
    (foldWhile test body moves x).Mends s := by
  intro told s' lacks a t run clean
  have mends : (foldWhile test body moves x).run.Ensures s fun r t =>
      ∀ s', State.Lacks told s s' → ∀ a, r = .ok a → t.errors = #[] →
        ∃ t', (foldWhile test body moves x).run.run s' = (.ok a, t') ∧ State.Lacks told t t' := by
    refine loop_rule (motive := fun x s (r : Except SyntaxError α) t => ∀ s', State.Lacks told s s' → ∀ a, r = .ok a →
      t.errors = #[] → ∃ t', (foldWhile test body moves x).run.run s' = (.ok a, t') ∧
        State.Lacks told t t') ?_ x s
    intro x s
    unfold Parser.Ensures
    rw [whileRound, Parser.run_bind, run_look]
    cases given : test s with
    | none =>
      intro s' lacks a done _
      cases done
      refine ⟨s', ?_, lacks⟩
      rw [foldWhile_eq, run_bind, run_lift, run_look]
      simp only [same s told s' lacks, given, run_pure]
    | some k =>
      dsimp only
      rw [Parser.run_bind]
      rcases outcome : (body k x).run.run s with ⟨r, t⟩
      cases r with
      | error e =>
        intro s' _ a failed
        cases failed
      | ok y =>
        intro b u reached rest s' lacks a isOk clean
        obtain ⟨t', run', after⟩ :=
          step k x s given told s' lacks y t outcome (reached.errors_eq_empty clean)
        obtain ⟨u', runRest, last⟩ := rest t' after a isOk clean
        refine ⟨u', ?_, last⟩
        rw [foldWhile_eq, run_bind, run_lift, run_look]
        simp only [same s told s' lacks, given]
        rw [run_bind_of_ok run']
        exact runRest
  unfold Parser.Ensures at mends
  rw [run] at mends
  exact mends s' lacks a rfl clean

end Attempt

namespace Parser

variable {α β : Type} {s : State}

/-- An attempt is settled in the same way, if something is recorded where it fails. -/
theorem mends_run_bind {p : Attempt α} {f : Except SyntaxError α → Parser β} (h : p.Mends s)
    (next : ∀ a t, (f (.ok a)).Mends t) (fail : ∀ e t, (f (.error e)).Blocked t) :
    (p.run >>= f).Mends s := by
  intro told s' lacks clean
  rw [run_bind] at clean
  rw [run_bind, run_bind]
  rcases run : p.run.run s with ⟨r, t⟩
  rw [run] at clean
  cases r with
  | ok a =>
    have before := ((f (.ok a)).reaches t).errors_eq_empty clean
    obtain ⟨t', run', after⟩ := h told s' lacks a t run before
    rw [run']
    exact next a t told t' after clean
  | error e => exact absurd clean (fail e t)

theorem blocked_run_bind {p : Attempt α} {f : Except SyntaxError α → Parser β} (h : p.Blocked s)
    (fail : ∀ e t, (f (.error e)).Blocked t) : (p.run >>= f).Blocked s := by
  intro clean
  rw [run_bind] at clean
  rcases run : p.run.run s with ⟨r, t⟩
  rw [run] at clean
  cases r with
  | ok a => exact h a t run (((f (.ok a)).reaches t).errors_eq_empty clean)
  | error e => exact fail e t clean

theorem blocked_fail (e : SyntaxError) (t : State) :
    (do record e; let token ← current; alloc .invalid token : Parser NodeId).Blocked t :=
  (blocked_record e).bind _

theorem mends_recover {attempt : Attempt NodeId} (h : attempt.Mends s) : (recover attempt).Mends s :=
  mends_run_bind h (fun id _ => mends_pure id) blocked_fail

theorem blocked_recover {attempt : Attempt NodeId} (h : attempt.Blocked s) :
    (recover attempt).Blocked s :=
  blocked_run_bind h blocked_fail

theorem blocked_tooDeep : tooDeep.Blocked s := by
  apply Attempt.blocked_look_bind
  apply Attempt.blocked_look_bind
  split
  · exact Attempt.blocked_throw _
  · exact Attempt.blocked_bind_throw _ _

/-- No item of a list starts with a token that may be left out. -/
theorem mends_commaList {item : Parser NodeId}
    (blocked : ∀ s, s.current.kind.isCloser = true → item.Blocked s) (h : ∀ s, item.Mends s) :
    (commaList item).Mends s := by
  refine mends_loop (fun items s => ?_) #[]
  refine mends_next_bind (fun closes => ?_) (fun token isEnd isEnd' => ?_) ?_
  · rw [if_neg (TokenKind.not_list_of_isCloser closes).2]
    exact (blocked s closes).bind _
  · simp [isEnd, isEnd']
  · split
    · exact mends_pure _
    · refine (h s).bind fun id t => mends_next_bind (fun closes => ?_) (fun token isEnd isEnd' => ?_) ?_
      · obtain ⟨noComma, noEnd⟩ := TokenKind.not_list_of_isCloser closes
        rw [if_neg noComma, if_neg noEnd]
        exact (blocked_record _).bind _
      · simp [isEnd, isEnd']
      · split
        · rename_i comma
          exact (mends_advance (by rw [comma]; rfl)).bind fun _ _ => mends_pure _
        · split
          · exact mends_pure _
          · exact (mends_record _).bind fun _ _ => mends_pure _

end Parser
end Viper
