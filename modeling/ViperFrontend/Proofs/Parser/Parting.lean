/-
# Parses that part

A parse is compared with another one that goes through the same tokens up to some point and finds
nothing wrong (`Parting`). Up to there the two do the same (`Parting.Together`). Behind that point
nothing is known of the tokens but that they stand on the line of the first that differs or further
down, and this is enough for what the parse records from there on (`Parting.Late`).

The only step that leads from the one to the other is passing the last shared token
(`Parting.Together.advance`), and it may be taken in the middle of any construct. So each parser is
shown to keep both (`Parser.Online`): from a late state it ends late, and from states that are
together it ends together, with the same value, or late, provided that the other parse comes to its
end without a diagnostic. An error that is made before the two part is one of the other parse as
well, which has none; so a parser that always fails only has to be looked at from late states
(`Attempt.online_bind_throw`). An error that is not yet recorded counts for the line it will have
(`Parting.LateAfter`).

Key definitions: `Parting`, `Parting.Together`, `Parting.Late`, `Parser.Online`, `Attempt.Online`.
Key theorems: `Parting.Together.advance`, `Parser.Online.bind`, `Parser.Online.loop`,
`Attempt.Online.settle`.
-/
import ViperFrontend.Proofs.Parser.Session

namespace Viper

open Viper.Parser

/-- Where the tokens of a parse and those of another one part: the tokens of either from there on, and
a line that no token of the first stands before. -/
structure Parting where
  line : UInt32
  rest : List Scanned
  otherRest : List Scanned
  line_le : ∀ x ∈ rest, line ≤ x.token.line

namespace Parting

variable (P : Parting)

/-- No syntax error has been recorded before the line. -/
def Tidy (s : State) : Prop :=
  ∀ d ∈ s.errors, d.fault.isLexical = false → P.line ≤ d.line

/-- The parse is behind the last token that is shared. -/
structure Late (s : State) : Prop where
  line_le : ∀ x ∈ s.ahead, P.line ≤ x.token.line
  line_le_end : P.line ≤ s.endLine
  tidy : P.Tidy s

/-- Both parses stand at the same token that is shared, and have built the same. -/
structure Together (s m : State) : Prop where
  limit_eq : s.limit = m.limit
  ast_eq : s.ast = m.ast
  ahead_eq : ∃ xs ys, xs ≠ [] ∧ s.ahead = xs ++ P.rest ∧ m.ahead = ys ++ P.otherRest ∧
    xs.map (·.token) = ys.map (·.token)
  line_le_end : P.line ≤ s.endLine
  tidy : P.Tidy s

/-- An attempt ends late: its state does, and if it fails then with an error that is. -/
def LateAfter {α : Type} (r : Except SyntaxError α × State) : Prop :=
  P.Late r.2 ∧ ∀ e, r.1 = .error e → P.line ≤ e.line

variable {P} {s m : State}

/-- The faults that are reported when a token is passed are those of texts. -/
theorem Tidy.advance (h : P.Tidy s) : P.Tidy s.advance :=
  fun d mem syntactic => h d (State.mem_errors_of_advance mem syntactic) syntactic

theorem Tidy.record (h : P.Tidy s) {e : SyntaxError} (line : P.line ≤ e.line) :
    P.Tidy (s.record e) := by
  intro d mem syntactic
  rcases Array.mem_push.1 mem with before | rfl
  · exact h d before syntactic
  · exact line

namespace Late

theorem line_le_current (h : P.Late s) : P.line ≤ s.current.line := by
  unfold State.current
  split
  · exact h.line_le_end
  · rename_i x xs ahead
    exact h.line_le x (by rw [ahead]; exact List.mem_cons_self)

theorem advance (h : P.Late s) : P.Late s.advance where
  line_le x mem := by
    rw [State.ahead_advance] at mem
    exact h.line_le x (List.mem_of_mem_tail mem)
  line_le_end := by
    rw [(State.Reaches.advance .refl : s.Reaches s.advance).endLine_eq]
    exact h.line_le_end
  tidy := h.tidy.advance

theorem record (h : P.Late s) {e : SyntaxError} (line : P.line ≤ e.line) : P.Late (s.record e) :=
  ⟨h.line_le, h.line_le_end, h.tidy.record line⟩

theorem after {α : Type} {a : α} (h : P.Late s) : P.LateAfter (Except.ok a, s) :=
  ⟨h, fun e failed => by cases failed⟩

theorem failing {α : Type} {e : SyntaxError} (h : P.Late s) (line : P.line ≤ e.line) :
    P.LateAfter ((Except.error e : Except SyntaxError α), s) := by
  refine ⟨h, fun e' same => ?_⟩
  cases same
  exact line

end Late

namespace Together

theorem current_eq (h : P.Together s m) : s.current = m.current := by
  obtain ⟨xs, ys, shared, ahead, otherAhead, same⟩ := h.ahead_eq
  obtain ⟨x, xs, rfl⟩ := List.exists_cons_of_ne_nil shared
  obtain ⟨y, ys, rfl, token, -⟩ := List.map_eq_cons_iff.1 same.symm
  simp only [State.current, ahead, otherAhead, List.cons_append, token]

/-- **Behind a shared token** both parses are at the next one, or it was the last. -/
theorem advance (h : P.Together s m) : P.Together s.advance m.advance ∨ P.Late s.advance := by
  obtain ⟨xs, ys, shared, ahead, otherAhead, same⟩ := h.ahead_eq
  obtain ⟨x, xs, rfl⟩ := List.exists_cons_of_ne_nil shared
  obtain ⟨y, ys, rfl, -, others⟩ := List.map_eq_cons_iff.1 same.symm
  have passed : s.advance.ahead = xs ++ P.rest := by
    rw [State.ahead_advance, ahead, List.cons_append, List.tail_cons]
  have otherPassed : m.advance.ahead = ys ++ P.otherRest := by
    rw [State.ahead_advance, otherAhead, List.cons_append, List.tail_cons]
  have reached : s.Reaches s.advance := .advance .refl
  have otherReached : m.Reaches m.advance := .advance .refl
  have ends : P.line ≤ s.advance.endLine := by
    rw [reached.endLine_eq]
    exact h.line_le_end
  by_cases last : xs = []
  · refine .inr ⟨fun x mem => P.line_le x ?_, ends, h.tidy.advance⟩
    rwa [passed, last] at mem
  · refine .inl ⟨?_, ?_, ⟨xs, ys, last, passed, otherPassed, others.symm⟩, ends, h.tidy.advance⟩
    · rw [reached.limit_eq, otherReached.limit_eq, h.limit_eq]
    · rw [State.ast_advance, State.ast_advance, h.ast_eq]

/-- The token after the current one is the same in both parses, or the current one is the last that
is shared. -/
theorem peek_eq (h : P.Together s m) : s.peek = m.peek ∨ P.Late s.advance := by
  rcases h.advance with together | late
  · rw [← State.current_advance, ← State.current_advance]
    exact .inl together.current_eq
  · exact .inr late

end Together
end Parting

namespace Parser

/-- The parser keeps late states, and states that are together if the other parse records nothing. -/
structure Online {α : Type} (P : Parting) (p : Parser α) (s m : State) : Prop where
  late : P.Late s → P.Late (p.run s).2
  together : P.Together s m → (p.run m).2.errors = #[] →
    (p.run s).1 = (p.run m).1 ∧ P.Together (p.run s).2 (p.run m).2 ∨ P.Late (p.run s).2

variable {α β σ κ : Type} {P : Parting} {s m : State}

theorem Online.bind {p : Parser α} {g : α → Parser β} (h : p.Online P s m)
    (next : ∀ a t m', p.run s = (a, t) → (g a).Online P t m') : (p >>= g).Online P s m where
  late late := (next _ _ m rfl).late (h.late late)
  together together clean := by
    have reached := (g (p.run m).1).reaches (p.run m).2
    rcases h.together together (reached.errors_eq_empty clean) with ⟨value, after⟩ | late
    · have onward := (next _ _ (p.run m).2 rfl).together after
      rw [value] at onward
      rw [run_bind, run_bind, value]
      exact onward clean
    · exact .inr ((next _ _ m rfl).late late)

theorem online_pure (a : α) : (pure a : Parser α).Online P s m :=
  ⟨fun late => late, fun together _ => .inl ⟨rfl, together⟩⟩

theorem online_ite {c : Prop} [Decidable c] {p q : Parser α} (yes : c → p.Online P s m)
    (no : ¬ c → q.Online P s m) : (if c then p else q).Online P s m := by
  by_cases h : c
  · rw [if_pos h]
    exact yes h
  · rw [if_neg h]
    exact no h

theorem online_look_bind {view : State → κ} {g : κ → Parser β}
    (same : P.Together s m → view s = view m) (next : (g (view s)).Online P s m) :
    (look view >>= g).Online P s m where
  late := next.late
  together together := by
    have onward := next.together together
    rw [run_bind, run_bind, run_look, run_look, ← same together]
    exact onward

theorem online_current_bind {g : Token → Parser β} (next : (g s.current).Online P s m) :
    (current >>= g).Online P s m :=
  online_look_bind (fun together => together.current_eq) next

theorem online_advance : advance.Online P s m where
  late late := late.advance
  together together _ := by
    rcases together.advance with after | late
    · exact .inl ⟨together.current_eq, after⟩
    · exact .inr late

/-- What the other parse records, it records in vain. -/
theorem online_record {e : SyntaxError} (line : P.Late s → P.line ≤ e.line) :
    (record e).Online P s m where
  late late := late.record (line late)
  together _ clean := absurd clean Array.push_ne_empty

theorem online_alloc (construct : Construct) (token : Token) :
    (alloc construct token).Online P s m where
  late late := ⟨late.line_le, late.line_le_end, late.tidy⟩
  together together _ := by
    refine .inl ⟨?_, together.limit_eq, ?_, together.ahead_eq, together.line_le_end, together.tidy⟩
    · exact congrArg (fun ast : Ast => (ast.alloc construct token).1) together.ast_eq
    · exact congrArg (fun ast : Ast => (ast.alloc construct token).2) together.ast_eq

theorem online_pushRoot (id : NodeId) : (pushRoot id).Online P s m where
  late late := ⟨late.line_le, late.line_le_end, late.tidy⟩
  together together _ := by
    refine .inl ⟨rfl, together.limit_eq, ?_, together.ahead_eq, together.line_le_end, together.tidy⟩
    exact congrArg (fun ast : Ast => ast.pushRoot id) together.ast_eq

/-! ### Loops -/

/-- A loop keeps what each of its rounds keeps; the rounds are counted by the tokens they pass. -/
theorem Online.loop {round : σ → Parser (Round σ β)} {progress : Progresses round}
    (step : ∀ x s m, (round x).Online P s m) (x : σ) (s m : State) :
    (loop round progress x).Online P s m := by
  induction length : s.ahead.length using Nat.strongRecOn generalizing x s m with
  | ind n ih =>
    rw [loop_eq]
    refine (step x s m).bind fun r t m' run => ?_
    cases r with
    | done b => exact online_pure b
    | again y =>
      have moved : (round x).Moves s := progress x s y (by rw [run])
      rw [Moves, run, length] at moved
      exact ih t.ahead.length moved y t m' rfl

theorem Online.foldWhile {test : State → Option κ} {body : κ → σ → Parser σ}
    {moves : ∀ k x s, test s = some k → (body k x).Moves s}
    (same : ∀ s m, P.Together s m → test s = test m)
    (step : ∀ k x s m, test s = some k → (body k x).Online P s m) (x : σ) :
    (foldWhile test body moves x).Online P s m := by
  refine Online.loop (fun x s m => online_look_bind (same s m) ?_) x s m
  cases given : test s with
  | none => exact online_pure _
  | some k => exact (step k x s m given).bind fun y _ _ _ => online_pure _

end Parser

namespace Attempt

/-- The same for attempts, where the other parse does not fail. -/
structure Online {α : Type} (P : Parting) (p : Attempt α) (s m : State) : Prop where
  late : P.Late s → P.LateAfter (p.run.run s)
  together : P.Together s m → ∀ a, (p.run.run m).1 = .ok a → (p.run.run m).2.errors = #[] →
    (p.run.run s).1 = .ok a ∧ P.Together (p.run.run s).2 (p.run.run m).2 ∨ P.LateAfter (p.run.run s)

variable {α β κ : Type} {P : Parting} {s m : State}

/-- Behind an attempt that ended late. -/
theorem late_bind {p : Attempt α} {g : α → Attempt β} (h : P.LateAfter (p.run.run s))
    (next : ∀ a t, p.run.run s = (.ok a, t) → P.Late t → P.LateAfter ((g a).run.run t)) :
    P.LateAfter ((p >>= g).run.run s) := by
  rw [run_bind]
  rcases outcome : p.run.run s with ⟨r, t⟩
  rw [outcome] at h
  cases r with
  | ok a => exact next a t outcome h.1
  | error e => exact h.1.failing (h.2 e rfl)

theorem Online.bind {p : Attempt α} {g : α → Attempt β} (h : p.Online P s m)
    (next : ∀ a t m', p.run.run s = (.ok a, t) → (g a).Online P t m') : (p >>= g).Online P s m where
  late late := late_bind (h.late late) fun a t run => (next a t m run).late
  together together b ended clean := by
    rcases outcome : p.run.run m with ⟨r, m'⟩
    rw [run_bind, outcome] at ended clean
    cases r with
    | error e => cases ended
    | ok a =>
      have reached := (g a).run.reaches m'
      have kept := h.together together a
      rw [outcome] at kept
      rcases kept rfl (reached.errors_eq_empty clean) with ⟨value, after⟩ | late
      · rw [run_bind, run_bind, outcome, value]
        exact (next a _ m' (Prod.ext value rfl)).together after b ended clean
      · exact .inr (late_bind late fun a t run => (next a t m run).late)

theorem online_lift {p : Parser α} (h : p.Online P s m) : (liftM p : Attempt α).Online P s m where
  late late := (h.late late).after
  together together a ended clean := by
    rcases h.together together clean with ⟨value, after⟩ | late
    · exact .inl ⟨(congrArg Except.ok value).trans ended, after⟩
    · exact .inr late.after

theorem online_pure (a : α) : (pure a : Attempt α).Online P s m :=
  online_lift (Parser.online_pure a)

theorem online_throw {e : SyntaxError} (line : P.Late s → P.line ≤ e.line) :
    (throw e : Attempt α).Online P s m where
  late late := late.failing (line late)
  together _ a ended := by cases ended

/-- What always fails does not happen in the other parse. -/
theorem online_bind_throw {p : Attempt α} {e : SyntaxError} (h : p.Online P s m)
    (line : P.Late s → P.line ≤ e.line) : (p >>= fun _ => throw e : Attempt β).Online P s m where
  late late := late_bind (h.late late) fun a t _ behind => behind.failing (line late)
  together _ b ended := by
    rw [run_bind] at ended
    cases outcome : (p.run.run m).1 with
    | ok a =>
      rw [outcome] at ended
      cases ended
    | error e =>
      rw [outcome] at ended
      cases ended

theorem online_ite {c : Prop} [Decidable c] {p q : Attempt α} (yes : c → p.Online P s m)
    (no : ¬ c → q.Online P s m) : (if c then p else q).Online P s m := by
  by_cases h : c
  · rw [if_pos h]
    exact yes h
  · rw [if_neg h]
    exact no h

theorem online_look_bind {view : State → κ} {g : κ → Attempt β}
    (same : P.Together s m → view s = view m) (next : (g (view s)).Online P s m) :
    (liftM (look view) >>= g : Attempt β).Online P s m where
  late := next.late
  together together := by
    have onward := next.together together
    rw [run_bind, run_bind, run_lift, run_lift, run_look, run_look, ← same together]
    exact onward

theorem online_current_bind {g : Token → Attempt β} (next : (g s.current).Online P s m) :
    (liftM current >>= g : Attempt β).Online P s m :=
  online_look_bind (fun together => together.current_eq) next

theorem online_advance_bind {g : Token → Attempt β} (next : ∀ a t m', (g a).Online P t m') :
    (liftM advance >>= g : Attempt β).Online P s m :=
  (online_lift online_advance).bind fun a t m' _ => next a t m'

theorem Online.foldWhile {test : State → Option κ} {body : κ → α → Attempt α}
    {moves : ∀ k x s, test s = some k → (body k x).run.Moves s}
    (same : ∀ s m, P.Together s m → test s = test m)
    (step : ∀ k x s m, test s = some k → (body k x).Online P s m) (x : α) (s m : State) :
    (foldWhile test body moves x).Online P s m := by
  induction length : s.ahead.length using Nat.strongRecOn generalizing x s m with
  | ind n ih =>
    rw [foldWhile_eq]
    refine online_look_bind (same s m) ?_
    cases given : test s with
    | none => exact online_pure x
    | some k =>
      refine (step k x s m given).bind fun y t m' run => ?_
      have moved := moves k x s given
      rw [Moves, run, length] at moved
      exact ih t.ahead.length moved y t m' rfl

/-! ### A look at the token after the current one -/

/-- The attempt starts by passing a token, so it ends late if that token was the last one shared. -/
structure Passes {α : Type} (P : Parting) (p : Attempt α) : Prop where
  online : ∀ s m, p.Online P s m
  late : ∀ s, P.Late s.advance → P.LateAfter (p.run.run s)

theorem passes_advance_bind {g : Token → Attempt α} (next : ∀ a t m, (g a).Online P t m) :
    (liftM advance >>= g : Attempt α).Passes P where
  online _ _ := online_advance_bind next
  late _ late := late_bind late.after fun a t _ => (next a t t).late

theorem passes_lift_advance_bind {g : Token → Parser α} (next : ∀ a t m, (g a).Online P t m) :
    (liftM (advance >>= g) : Attempt α).Passes P where
  online _ _ := online_lift (online_advance.bind fun a t m _ => next a t m)
  late s late := ((next s.current s.advance s.advance).late late).after

/-- The token after the current one may differ where the current one is the last that is shared. Then
whatever is chosen by it has to pass the current one. -/
theorem online_peek_bind {g : Token → Attempt β} (passes : ∀ next, (g next).Passes P) :
    (liftM peek >>= g : Attempt β).Online P s m where
  late := ((passes s.peek).online s m).late
  together together := by
    rcases together.peek_eq with same | late
    · have onward := ((passes s.peek).online s m).together together
      rw [run_bind, run_bind, run_lift, run_lift, run_peek, run_peek, ← same]
      exact onward
    · exact fun _ _ _ => .inr ((passes s.peek).late s late)

/-! ### Recovery -/

/-- What is done with the outcome of an attempt. Whoever is given an error records it. -/
theorem Online.settle {p : Attempt α} {g : Except SyntaxError α → Parser β} (h : p.Online P s m)
    (ok : ∀ a t m', (g (.ok a)).Online P t m')
    (error : ∀ e t, P.line ≤ e.line → P.Late t → P.Late ((g (.error e)).run t).2)
    (records : ∀ (e : SyntaxError) (t : State), (t.record e).Reaches ((g (.error e)).run t).2) :
    (p.run >>= g).Online P s m := by
  have onward : P.LateAfter (p.run.run s) → P.Late ((p.run >>= g).run s).2 := by
    rw [Parser.run_bind]
    rcases p.run.run s with ⟨r, t⟩
    intro late
    cases r with
    | ok a => exact (ok a t t).late late.1
    | error e => exact error e t (late.2 e rfl) late.1
  refine ⟨fun late => onward (h.late late), fun together clean => ?_⟩
  rcases outcome : p.run.run m with ⟨r, m'⟩
  rw [Parser.run_bind, outcome] at clean
  cases r with
  | error e => exact absurd ((records e m').errors_eq_empty clean) Array.push_ne_empty
  | ok a =>
    have reached := (g (.ok a)).reaches m'
    have kept := h.together together a
    rw [outcome] at kept
    rcases kept rfl (reached.errors_eq_empty clean) with ⟨value, after⟩ | late
    · rw [Parser.run_bind, Parser.run_bind, outcome, value]
      exact (ok a _ m').together after clean
    · exact .inr (onward late)

end Attempt
end Viper
