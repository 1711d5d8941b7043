/-
# What a parser does with the words it expects

The words ahead of a state are its tokens without their places (`State.Ahead`). A parser that
finds the words of its construct ahead reads them, leaves the rest, records nothing and gives
the node of the construct; that is, if there is room for the levels that the construct opens. If
there is not, the parse will report that a construct is nested too deeply.

`Parser.Accepts` says both, where `fits` stands for "there is room". It is seen from the last
state of the parse, as in `Reading`: the nodes are found there, and so is the report. An
attempt without room may also fail because the construct is nested too deeply, and whoever
recovers from that reports it (`Attempt.Accepts`). In a sequence of parsers what does not fit
one of them does not fit the sequence (`Parser.Accepts.bind`).

Key definitions: `Parser.State.Ahead`, `Parser.State.TooDeep`, `Parser.Accepts`,
`Attempt.Accepts`.
Key theorems: `Parser.Accepts.bind`, `Attempt.Accepts.bind`, `Parser.accepts_recover`,
`Parser.accepts_nested`, `Parser.accepts_commaList`.
-/
import ViperFrontend.Proofs.Grammar.Printing
import ViperFrontend.Proofs.Parser.Rules

namespace Viper

/-- Nothing is kept of a token. -/
def Token.forget (_ : Token) : Unit := ()

namespace Parser
namespace State

/-- The words of the tokens ahead, with whose texts nothing is wrong. -/
def Ahead (s : State) (ws : List Word) : Prop :=
  Word.Of s.ahead ws

/-- It is reported that a construct is nested too deeply. -/
def TooDeep (s : State) : Prop :=
  ∃ d ∈ s.errors, d.fault = .syntactic (.nestingTooDeep s.limit)

variable {s : State} {w : Word} {ws : List Word}

theorem Ahead.exists_cons (h : s.Ahead (w :: ws)) :
    ∃ x rest, s.ahead = x :: rest ∧ x.token.word = w ∧ Word.Of rest ws := by
  obtain ⟨x, rest, ahead, word, words⟩ := List.map_eq_cons_iff.1 h.words_eq
  refine ⟨x, rest, ahead, word, words, fun y mem => ?_⟩
  exact h.clean y (by rw [ahead]; exact List.mem_cons_of_mem _ mem)

theorem Ahead.word_current (h : s.Ahead (w :: ws)) : s.current.word = w := by
  obtain ⟨x, rest, ahead, word, -⟩ := h.exists_cons
  simpa [current, ahead] using word

theorem Ahead.kind_current (h : s.Ahead ws) : s.current.kind = Word.nextKind ws := by
  cases ws with
  | nil =>
    have none : s.ahead = [] := List.map_eq_nil_iff.1 h.words_eq
    simp [current, none, Word.nextKind, endToken, Token.endOfFile]
  | cons w ws => exact congrArg Word.kind h.word_current

theorem Ahead.advance (h : s.Ahead (w :: ws)) : s.advance.Ahead ws := by
  obtain ⟨x, rest, ahead, -, others⟩ := h.exists_cons
  unfold Ahead
  rwa [ahead_advance, ahead]

theorem Ahead.kind_peek (h : s.Ahead (w :: ws)) : s.peek.kind = Word.nextKind ws := by
  rw [← current_advance]
  exact h.advance.kind_current

/-- Nothing is noted of a token with whose text nothing is wrong. -/
theorem noteFault_getElem? {scanned : List Scanned} (clean : ∀ x ∈ scanned, x.fault? = none)
    (file : String) (i : Nat) (errors : Array Diagnostic) :
    noteFault file scanned[i]? errors = errors := by
  cases found : scanned[i]? with
  | none => rfl
  | some x => simp [noteFault, Scanned.diagnostic?, clean x (List.mem_of_getElem? found)]

theorem Ahead.errors_advance (h : s.Ahead ws) : s.advance.errors = s.errors := by
  unfold State.advance
  split
  · rfl
  · rename_i first rest ahead
    refine noteFault_getElem? (fun x mem => h.clean x ?_) s.file 1 s.errors
    rw [ahead]
    exact List.mem_cons_of_mem _ mem

/-- Everything that fits is passed up to the rest, and nothing is recorded; what does not fit is
reported before the state `last`. -/
def Settles (s t last : State) (fits : Prop) (rest : List Word) (q : Prop) : Prop :=
  t.Reaches last → (fits ∧ t.Ahead rest ∧ t.errors = s.errors ∧ q) ∨ (¬ fits ∧ last.TooDeep)

theorem Settles.of_errors_eq {t u last : State} {fits q : Prop} {rest : List Word}
    (h : t.Settles u last fits rest q) (same : t.errors = s.errors) :
    s.Settles u last fits rest q := by
  intro reached
  rcases h reached with ⟨yes, here, errors, holds⟩ | no
  · exact .inl ⟨yes, here, errors.trans same, holds⟩
  · exact .inr no

/-- An error that is recorded is still there at the end. -/
theorem tooDeep_of_record {t last : State} {e : SyntaxError} (reached : (t.record e).Reaches last)
    (fault : e.fault = .nestingTooDeep last.limit) : last.TooDeep := by
  refine ⟨⟨.syntactic e.fault, e.line, t.file⟩, ?_, congrArg Fault.syntactic fault⟩
  have mem : ⟨.syntactic e.fault, e.line, t.file⟩ ∈ (t.record e).errors.toList := by
    simp [State.record]
  exact Array.mem_toList_iff.1 (reached.errors_extend.subset mem)

end State

variable {α β σ κ : Type} {s last : State} {fits fits' : Prop} {w : Word}
  {ws mid rest : List Word} {Q : α → Prop} {R : β → Prop}

/-- From `s` the parser passes the words up to the rest and gives a value as asked for, if
they fit; if not, that is reported before the state `last`. -/
def Accepts (p : Parser α) (last s : State) (fits : Prop) (rest : List Word) (Q : α → Prop) :
    Prop :=
  p.Ensures s fun a t => s.Settles t last fits rest (Q a)

theorem Accepts.bind {p : Parser α} {f : α → Parser β} (h : p.Accepts last s fits mid Q)
    (needs : fits' → fits)
    (next : ∀ a t, fits → t.Ahead mid → Q a → (f a).Accepts last t fits' rest R) :
    (p >>= f).Accepts last s fits' rest R := by
  intro reached
  have later := ((f (p.run s).1).reaches (p.run s).2).trans reached
  rcases h later with ⟨yes, here, same, holds⟩ | ⟨no, deep⟩
  · exact (next _ _ yes here holds : State.Settles _ _ _ _ _ _).of_errors_eq same reached
  · exact .inr ⟨fun yes => no (needs yes), deep⟩

theorem Accepts.imp {p : Parser α} {Q' : α → Prop} (h : p.Accepts last s fits rest Q)
    (same : fits ↔ fits') (weaker : ∀ a, Q a → Q' a) : p.Accepts last s fits' rest Q' := by
  intro reached
  rcases h reached with ⟨yes, here, errors, holds⟩ | ⟨no, deep⟩
  · exact .inl ⟨same.1 yes, here, errors, weaker _ holds⟩
  · exact .inr ⟨fun yes => no (same.2 yes), deep⟩

theorem accepts_pure {a : α} (yes : fits) (here : s.Ahead rest) (holds : Q a) :
    (pure a : Parser α).Accepts last s fits rest Q :=
  fun _ => .inl ⟨yes, here, rfl, holds⟩

theorem accepts_current_bind {f : Token → Parser β} (next : (f s.current).Accepts last s fits rest R) :
    (current >>= f).Accepts last s fits rest R := next

theorem accepts_advance {Q : Token → Prop} (here : s.Ahead (w :: ws)) (yes : fits)
    (h : ∀ token, token.word = w → Q token) : advance.Accepts last s fits ws Q :=
  fun _ => .inl ⟨yes, here.advance, here.errors_advance, h _ here.word_current⟩

theorem accepts_advance_bind {f : Token → Parser β} (here : s.Ahead (w :: ws))
    (next : ∀ token t, token.word = w → t.Ahead ws → (f token).Accepts last t fits rest R) :
    (advance >>= f).Accepts last s fits rest R :=
  (next _ _ here.word_current here.advance : State.Settles _ _ _ _ _ _).of_errors_eq
    here.errors_advance

/-- A node that is made is there in the last state. -/
theorem accepts_alloc {construct : Construct} {token : Token} {Q : NodeId → Prop} (yes : fits)
    (here : s.Ahead rest)
    (h : ∀ node, last.ast.Shows Token.forget node construct () → Q node) :
    (alloc construct token).Accepts last s fits rest Q := by
  intro reached
  have made := Ast.getElem?_faces_alloc s.ast construct token
  have shown := Ast.getElem?_faces_mono reached.faces_extend made
  exact .inl ⟨yes, here, rfl, h _ ⟨token, shown, rfl⟩⟩

theorem accepts_foldWhile_done {test : State → Option κ} {body : κ → σ → Parser σ}
    {moves : ∀ k x s, test s = some k → (body k x).Moves s} {x : σ} {Q : σ → Prop}
    (given : test s = none) (yes : fits) (here : s.Ahead rest) (holds : Q x) :
    (foldWhile test body moves x).Accepts last s fits rest Q :=
  ensures_foldWhile_done given (accepts_pure yes here holds)

theorem accepts_foldWhile_again {test : State → Option κ} {body : κ → σ → Parser σ}
    {moves : ∀ k x s, test s = some k → (body k x).Moves s} {x : σ} {k : κ} {Q : σ → Prop}
    (given : test s = some k)
    (next : (body k x >>= foldWhile test body moves).Accepts last s fits rest Q) :
    (foldWhile test body moves x).Accepts last s fits rest Q :=
  ensures_foldWhile_again given next

end Parser

namespace Attempt

open Viper.Parser

variable {α β κ : Type} {s last : State} {fits fits' : Prop} {w : Word}
  {ws mid rest : List Word} {Q : α → Prop} {R : β → Prop}

/-- The same for an attempt. What does not fit may also be its error. -/
def Accepts (p : Attempt α) (last s : State) (fits : Prop) (rest : List Word) (Q : α → Prop) :
    Prop :=
  p.Ensures s (fun a t => s.Settles t last fits rest (Q a)) fun e t =>
    t.Reaches last → ¬ fits ∧ (last.TooDeep ∨ e.fault = .nestingTooDeep last.limit)

theorem Accepts.of_errors_eq {p : Attempt α} {t : State} (h : p.Accepts last t fits rest Q)
    (same : t.errors = s.errors) :
    p.Ensures t (fun a u => s.Settles u last fits rest (Q a)) fun e u =>
      u.Reaches last → ¬ fits ∧ (last.TooDeep ∨ e.fault = .nestingTooDeep last.limit) :=
  Ensures.imp h (fun _ _ _ settled => settled.of_errors_eq same) fun _ _ _ failed => failed

theorem Accepts.bind {p : Attempt α} {f : α → Attempt β} (h : p.Accepts last s fits mid Q)
    (needs : fits' → fits)
    (next : ∀ a t, fits → t.Ahead mid → Q a → (f a).Accepts last t fits' rest R) :
    (p >>= f).Accepts last s fits' rest R := by
  refine Ensures.bind h ?_ ?_
  · intro a t _ settled
    have reaches := (f a).run.reaches t
    unfold Ensures Parser.Ensures
    cases outcome : ((f a).run.run t).1 with
    | ok b =>
      intro reached
      rcases settled (reaches.trans reached) with ⟨yes, here, same, holds⟩ | ⟨no, deep⟩
      · have settles := (next a t yes here holds).of_errors_eq same
        unfold Ensures Parser.Ensures at settles
        rw [outcome] at settles
        exact settles reached
      · exact .inr ⟨fun yes => no (needs yes), deep⟩
    | error e =>
      intro reached
      rcases settled (reaches.trans reached) with ⟨yes, here, same, holds⟩ | ⟨no, deep⟩
      · have failed := next a t yes here holds
        unfold Accepts Ensures Parser.Ensures at failed
        rw [outcome] at failed
        exact failed reached
      · exact ⟨fun yes => no (needs yes), .inl deep⟩
  · intro e t _ failed reached
    obtain ⟨no, deep⟩ := failed reached
    exact ⟨fun yes => no (needs yes), deep⟩

theorem Accepts.imp {p : Attempt α} {Q' : α → Prop} (h : p.Accepts last s fits rest Q)
    (same : fits ↔ fits') (weaker : ∀ a, Q a → Q' a) : p.Accepts last s fits' rest Q' := by
  refine Ensures.imp h ?_ ?_
  · intro a t _ settled reached
    rcases settled reached with ⟨yes, here, errors, holds⟩ | ⟨no, deep⟩
    · exact .inl ⟨same.1 yes, here, errors, weaker _ holds⟩
    · exact .inr ⟨fun yes => no (same.2 yes), deep⟩
  · intro e t _ failed reached
    obtain ⟨no, deep⟩ := failed reached
    exact ⟨fun yes => no (same.2 yes), deep⟩

theorem accepts_lift {p : Parser α} (h : p.Accepts last s fits rest Q) :
    (liftM p : Attempt α).Accepts last s fits rest Q := h

theorem accepts_pure {a : α} (yes : fits) (here : s.Ahead rest) (holds : Q a) :
    (pure a : Attempt α).Accepts last s fits rest Q :=
  fun _ => .inl ⟨yes, here, rfl, holds⟩

theorem accepts_look_bind {g : State → κ} {f : κ → Attempt β}
    (next : (f (g s)).Accepts last s fits rest R) :
    (liftM (look g) >>= f : Attempt β).Accepts last s fits rest R := next

theorem accepts_advance_bind {f : Token → Attempt β} (here : s.Ahead (w :: ws))
    (next : ∀ token t, token.word = w → t.Ahead ws → (f token).Accepts last t fits rest R) :
    (liftM advance >>= f : Attempt β).Accepts last s fits rest R :=
  (next _ _ here.word_current here.advance).of_errors_eq here.errors_advance

/-- What is done with the outcome of an attempt that fits. -/
theorem Accepts.settle {p : Attempt α} {f : Except SyntaxError α → Parser β}
    (h : p.Accepts last s fits mid Q) (yes : fits)
    (next : ∀ a t, t.Ahead mid → Q a → (f (.ok a)).Accepts last t fits' rest R) :
    (p.run >>= f).Accepts last s fits' rest R := by
  unfold Accepts Ensures Parser.Ensures at h
  unfold Parser.Accepts Parser.Ensures
  rw [Parser.run_bind]
  rcases run : p.run.run s with ⟨r, t⟩
  rw [run] at h
  intro reached
  have reached' := ((f r).reaches t).trans reached
  cases r with
  | ok a =>
    rcases h reached' with ⟨-, here, same, holds⟩ | ⟨no, -⟩
    · exact (next a t here holds : State.Settles _ _ _ _ _ _).of_errors_eq same reached
    · exact absurd yes no
  | error e => exact absurd yes (h reached').1

theorem accepts_foldWhile_done {test : State → Option κ} {body : κ → α → Attempt α}
    {moves : ∀ k x s, test s = some k → (body k x).run.Moves s} {x : α}
    (given : test s = none) (yes : fits) (here : s.Ahead rest) (holds : Q x) :
    (foldWhile test body moves x).Accepts last s fits rest Q := by
  rw [foldWhile_eq]
  apply accepts_look_bind
  rw [given]
  exact accepts_pure yes here holds

theorem accepts_foldWhile_again {test : State → Option κ} {body : κ → α → Attempt α}
    {moves : ∀ k x s, test s = some k → (body k x).run.Moves s} {x : α} {k : κ}
    (given : test s = some k)
    (next : (body k x >>= foldWhile test body moves).Accepts last s fits rest Q) :
    (foldWhile test body moves x).Accepts last s fits rest Q := by
  rw [foldWhile_eq]
  apply accepts_look_bind
  rw [given]
  exact next

end Attempt

namespace Parser

variable {β τ : Type} {s last : State} {fits : Prop} {w : Word} {ws rest : List Word}
  {R : β → Prop}

/-! ### Recovery -/

theorem run_eat {expected : TokenKind} (same : s.current.kind = expected) :
    (eat expected).run s = (s.current, s.advance) := by
  simp [eat, expect, same]

theorem accepts_eat_bind {expected : TokenKind} {f : Token → Parser β} (here : s.Ahead (w :: ws))
    (kind : w.kind = expected)
    (next : ∀ token t, token.word = w → t.Ahead ws → (f token).Accepts last t fits rest R) :
    (eat expected >>= f).Accepts last s fits rest R := by
  have run := run_eat (here.kind_current.trans kind)
  unfold Accepts Ensures
  rw [run_bind, run]
  exact accepts_advance_bind here next

theorem accepts_lift_eat_bind {expected : TokenKind} {f : Token → Attempt β}
    (here : s.Ahead (w :: ws)) (kind : w.kind = expected)
    (next : ∀ token t, token.word = w → t.Ahead ws → (f token).Accepts last t fits rest R) :
    (liftM (eat expected) >>= f : Attempt β).Accepts last s fits rest R := by
  have run := run_eat (here.kind_current.trans kind)
  unfold Attempt.Accepts Attempt.Ensures Ensures
  rw [Attempt.run_bind, Attempt.run_lift, run]
  exact Attempt.accepts_advance_bind here next

/-- Who recovers from an error for lack of room reports it. -/
theorem accepts_recover {p : Attempt NodeId} {Q : NodeId → Prop}
    (h : p.Accepts last s fits rest Q) : (recover p).Accepts last s fits rest Q := by
  unfold Attempt.Accepts Attempt.Ensures Ensures at h
  unfold Accepts Ensures recover
  rw [run_bind]
  rcases run : p.run.run s with ⟨r, t⟩
  rw [run] at h
  cases r with
  | ok id => exact h
  | error e =>
    intro reached
    have recorded : (t.record e).Reaches last := .trans (.alloc _ _ .refl) reached
    obtain ⟨no, deep | fault⟩ := h (.trans (.record e .refl) recorded)
    · exact .inr ⟨no, deep⟩
    · exact .inr ⟨no, State.tooDeep_of_record recorded fault⟩

/-- What is too deep does not fit. -/
theorem accepts_tooDeep {Q : NodeId → Prop} (no : ¬ fits) : tooDeep.Accepts last s fits rest Q := by
  have fails : ∀ t line, s.Reaches t → t.Reaches last → ¬ fits ∧ (last.TooDeep ∨
      (⟨.nestingTooDeep s.limit, line⟩ : SyntaxError).fault = .nestingTooDeep last.limit) := by
    intro t line before after
    rw [(before.trans after).limit_eq]
    exact ⟨no, .inr rfl⟩
  apply Attempt.accepts_look_bind
  apply Attempt.accepts_look_bind
  split
  · exact fails s _ .refl
  · exact fails _ _ (skipConstruct.reaches s)

/-- What is one level further in fits if a level is left for it. -/
theorem accepts_nested {p : Nat → Attempt NodeId} {n room : Nat} {Q : NodeId → Prop}
    (h : ∀ room, (p room).Accepts last s (n ≤ room) rest Q) :
    (nested room p).Accepts last s (n + 1 ≤ room) rest Q := by
  cases room with
  | zero => exact accepts_tooDeep (by omega)
  | succ room => exact (h room).imp (by omega) fun _ holds => holds

/-! ### Lists -/

variable {item : Parser NodeId} {holds : NodeId → τ → Prop} {words : τ → List Word}
  {room : τ → Prop} {items : Array NodeId}

/-- The parser of an item accepts the words of an item where a list goes on or ends. -/
def AcceptsItem (item : Parser NodeId) (last : State) (room : τ → Prop) (words : τ → List Word)
    (holds : NodeId → τ → Prop) (x : τ) : Prop :=
  ∀ t rest, Word.nextKind rest = .comma ∨ Word.nextKind rest = .closeParen →
    t.Ahead (words x ++ rest) → t.current.kind ≠ .closeParen ∧ t.current.kind ≠ .eof ∧
      item.Accepts last t (room x) rest fun node => holds node x

theorem accepts_listRound_done (here : s.Ahead rest) (closing : Word.nextKind rest = .closeParen) :
    (listRound item items).Accepts last s True rest fun r => r = .done items.toList := by
  have kind := here.kind_current
  rw [closing] at kind
  apply accepts_current_bind
  rw [if_pos (.inl kind)]
  exact accepts_pure trivial here rfl

theorem accepts_listRound_last {x : τ} (h : AcceptsItem item last room words holds x)
    (here : s.Ahead (words x ++ rest)) (closing : Word.nextKind rest = .closeParen) :
    (listRound item items).Accepts last s (room x) rest fun r =>
      ∃ node, holds node x ∧ r = .done (items.push node).toList := by
  obtain ⟨notClosing, notEof, accepts⟩ := h s rest (.inr closing) here
  apply accepts_current_bind
  rw [if_neg (by simp [notClosing, notEof])]
  refine accepts.bind id fun node t yes here held => ?_
  have kind := here.kind_current
  rw [closing] at kind
  apply accepts_current_bind
  rw [if_neg (by simp [kind]), if_pos (.inl kind)]
  exact accepts_pure yes here ⟨node, held, rfl⟩

theorem accepts_listRound_more {x : τ} (h : AcceptsItem item last room words holds x)
    (here : s.Ahead (words x ++ Word.symbol .comma :: ws)) :
    (listRound item items).Accepts last s (room x) ws fun r =>
      ∃ node, holds node x ∧ r = .again (items.push node) := by
  obtain ⟨notClosing, notEof, accepts⟩ := h s _ (.inl rfl) here
  apply accepts_current_bind
  rw [if_neg (by simp [notClosing, notEof])]
  refine accepts.bind id fun node t yes here held => ?_
  have comma : t.current.kind = .comma := here.kind_current
  apply accepts_current_bind
  rw [if_pos comma]
  refine accepts_advance_bind here fun _ t _ here => ?_
  exact accepts_pure yes here ⟨node, held, rfl⟩

theorem accepts_loop_listRound : ∀ (xs : List τ) (items : Array NodeId) (s : State),
    (∀ x ∈ xs, AcceptsItem item last room words holds x) →
    s.Ahead (Program.commaSeparated (xs.map words) ++ rest) →
    Word.nextKind rest = .closeParen →
    (loop (listRound item) (progresses_listRound item) items).Accepts last s (∀ x ∈ xs, room x)
      rest fun ids => ∃ more, ids = items.toList ++ more ∧ List.Forall₂ holds more xs
  | [], items, s, _, here, closing => by
    rw [loop_eq]
    refine (accepts_listRound_done here closing).bind (fun _ => trivial) ?_
    rintro _ t _ here rfl
    exact accepts_pure (by simp) here ⟨[], by simp, .nil⟩
  | [x], items, s, h, here, closing => by
    rw [loop_eq]
    refine (accepts_listRound_last (h x (by simp)) here closing).bind (by simp) ?_
    rintro _ t yes here ⟨node, held, rfl⟩
    exact accepts_pure (by simpa using yes) here ⟨[node], by simp, .cons held .nil⟩
  | x :: y :: ys, items, s, h, here, closing => by
    have first : s.Ahead (words x ++ Word.symbol .comma ::
        (Program.commaSeparated ((y :: ys).map words) ++ rest)) := by
      simpa [Program.commaSeparated] using here
    rw [loop_eq]
    refine (accepts_listRound_more (h x (by simp)) first).bind (fun all => all x (by simp)) ?_
    rintro _ t yes here ⟨node, held, rfl⟩
    have others := accepts_loop_listRound (y :: ys) (items.push node) t
      (fun z mem => h z (List.mem_cons_of_mem _ mem)) here closing
    refine others.imp ?_ ?_
    · rw [List.forall_mem_cons (l := y :: ys)]
      exact (and_iff_right yes).symm
    · rintro ids ⟨more, rfl, held'⟩
      exact ⟨node :: more, by simp, .cons held held'⟩

/-- **A list reads its items and the commas between them.** -/
theorem accepts_commaList {xs : List τ} (h : ∀ x ∈ xs, AcceptsItem item last room words holds x)
    (here : s.Ahead (Program.commaSeparated (xs.map words) ++ rest))
    (closing : Word.nextKind rest = .closeParen) :
    (commaList item).Accepts last s (∀ x ∈ xs, room x) rest fun ids =>
      List.Forall₂ holds ids xs := by
  refine (accepts_loop_listRound xs #[] s h here closing).imp .rfl ?_
  rintro ids ⟨more, rfl, held⟩
  simpa using held

end Parser
end Viper
