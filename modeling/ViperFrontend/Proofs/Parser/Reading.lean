/-
# What a parser reads when nothing is recorded

Recovery passes tokens that belong to no construct and makes up names that are not there, but
never without recording an error. So a parse at whose end no error has been recorded went
through no recovery at all, and each of its parsers has read the tokens of its construct.

`Parser.Reads` says that of one parser, seen from the last state of the whole parse: if nothing
is recorded up to there, the tokens passed and the value are in the given relation. Looking back
from the last state, all nodes are there already, so what a relation says about them need
not be carried from state to state. An attempt may also fail, and then nothing is said
(`Attempt.Reads`). A parser that records an error reads whatever one likes
(`Parser.reads_record`).

Key definitions: `Parser.Reads`, `Attempt.Reads`, `Grammar.Stands`.
Key theorems: `Parser.Reads.bind`, `Attempt.Reads.bind`, `Parser.reads_record`,
`Parser.reads_commaList`.
-/
import ViperFrontend.Proofs.Grammar.Derivation
import ViperFrontend.Proofs.Parser.Rules

namespace Viper

/-- The tokens are in the relation with what stands at a node. -/
def Grammar.Stands {ι τ : Type} (G : List Token → τ → Prop) (holds : ι → τ → Prop)
    (ts : List Token) (node : ι) : Prop :=
  ∃ x, G ts x ∧ holds node x

namespace Parser
namespace State

/-- The tokens ahead. -/
def tokens (s : State) : List Token :=
  s.ahead.map (·.token)

theorem tokens_eq_cons {s : State} (h : s.ahead ≠ []) :
    s.tokens = s.current :: s.advance.tokens := by
  unfold tokens current
  rw [ahead_advance]
  split
  · contradiction
  · rename_i ahead
    rw [ahead]
    rfl

theorem Reaches.tokens_suffix {s t : State} (reached : s.Reaches t) : t.tokens <:+ s.tokens :=
  reached.ahead_suffix.map _

/-- Where a token is passed, the current one is the first. -/
theorem Reaches.exists_read {s t : State} (reached : s.Reaches t)
    (moved : t.ahead.length < s.ahead.length) :
    ∃ read, s.tokens = s.current :: read ++ t.tokens := by
  have here : s.ahead ≠ [] := List.ne_nil_of_length_pos (Nat.zero_lt_of_lt moved)
  obtain ⟨read, split⟩ := reached.tokens_suffix
  cases read with
  | nil =>
    have same := congrArg List.length split
    simp [tokens] at same
    omega
  | cons first read =>
    rw [tokens_eq_cons here] at split ⊢
    injection split with same rest
    exact ⟨read, by rw [← rest]; rfl⟩

/-- From `s` to `t` tokens are passed of which `R` holds, unless something is recorded before
the state `last`. -/
def Passes (s t last : State) (R : List Token → Prop) : Prop :=
  t.Reaches last → last.errors = s.errors → ∃ read, s.tokens = read ++ t.tokens ∧ R read

theorem Passes.trans {s t u last : State} {R R' : List Token → Prop} (first : s.Reaches t)
    (second : t.Reaches u) (h : s.Passes t last R)
    (k : ∀ read, R read → t.Passes u last fun us => R' (read ++ us)) : s.Passes u last R' := by
  intro reached clean
  have reached' := second.trans reached
  obtain ⟨read, split, holds⟩ := h reached' clean
  have same := first.errors_eq reached' clean
  obtain ⟨read', split', holds'⟩ := k read holds reached (clean.trans same.symm)
  exact ⟨read ++ read', by rw [split, split', List.append_assoc], holds'⟩

theorem Passes.imp {s t last : State} {R R' : List Token → Prop} (h : s.Passes t last R)
    (weaker : ∀ read, R read → R' read) : s.Passes t last R' := by
  intro reached clean
  obtain ⟨read, split, holds⟩ := h reached clean
  exact ⟨read, split, weaker read holds⟩

/-- An error that is recorded is still there at the end. -/
theorem record_errors_ne {s last : State} {e : SyntaxError} (reached : (s.record e).Reaches last) :
    last.errors ≠ s.errors := by
  intro clean
  have same := (Reaches.record e .refl).errors_eq reached clean
  have size := congrArg Array.size same
  simp [State.record] at size

end State

variable {α β σ κ : Type} {s last : State} {R : List Token → α → Prop}
  {R' : List Token → β → Prop}

/-- From `s` the parser reads tokens that are in the relation with its value, unless something
is recorded before the state `last`. -/
def Reads (p : Parser α) (last s : State) (R : List Token → α → Prop) : Prop :=
  p.Ensures s fun a t => s.Passes t last (R · a)

/-- What a parser reads from a state on comes behind what was passed up to there. -/
theorem Reads.behind {p : Parser α} {t : State} {P : List Token → Prop} (first : s.Reaches t)
    (passed : s.Passes t last P) (h : ∀ read, P read → p.Reads last t fun us => R (read ++ us)) :
    p.Ensures t fun a u => s.Passes u last (R · a) :=
  State.Passes.trans first (p.reaches t) passed h

/-- What follows a parser may use the state in which it ends. -/
theorem Reads.bind_run {p : Parser α} {f : α → Parser β} (h : p.Reads last s R)
    (next : ∀ read, R read (p.run s).1 →
      (f (p.run s).1).Reads last (p.run s).2 fun us => R' (read ++ us)) :
    (p >>= f).Reads last s R' :=
  Reads.behind (p := f (p.run s).1) (p.reaches s) h next

theorem Reads.bind {p : Parser α} {f : α → Parser β} (h : p.Reads last s R)
    (next : ∀ a t read, R read a → (f a).Reads last t fun us => R' (read ++ us)) :
    (p >>= f).Reads last s R' :=
  h.bind_run fun read => next _ _ read

theorem Reads.imp {p : Parser α} {Q : List Token → α → Prop} (h : p.Reads last s R)
    (weaker : ∀ read a, R read a → Q read a) : p.Reads last s Q :=
  State.Passes.imp h fun read => weaker read _

/-- What is read starts with the current token. -/
theorem Reads.first {p : Parser α} (h : p.Reads last s R) :
    p.Reads last s fun read a => R read a ∧ ∀ token ts, read = token :: ts → token = s.current := by
  intro reached clean
  obtain ⟨read, passed, holds⟩ := h reached clean
  refine ⟨read, passed, holds, ?_⟩
  rintro token ts rfl
  unfold State.tokens at passed
  unfold State.current
  split <;> simp_all

theorem reads_pure {a : α} (h : R [] a) : (pure a : Parser α).Reads last s R :=
  fun _ _ => ⟨[], rfl, h⟩

theorem reads_current_bind {f : Token → Parser β} (next : (f s.current).Reads last s R') :
    (current >>= f).Reads last s R' := next

theorem passes_advance (some : s.ahead ≠ []) :
    s.Passes s.advance last fun read => read = [s.current] :=
  fun _ _ => ⟨[s.current], State.tokens_eq_cons some, rfl⟩

theorem reads_advance {R : List Token → Token → Prop} (some : s.ahead ≠ [])
    (h : R [s.current] s.current) : advance.Reads last s R :=
  (passes_advance some).imp fun _ only => only ▸ h

theorem reads_advance_bind {f : Token → Parser β} (some : s.ahead ≠ [])
    (next : (f s.current).Reads last s.advance fun us => R' (s.current :: us)) :
    (advance >>= f).Reads last s R' :=
  Reads.behind (p := f s.current) (.advance .refl) (passes_advance some) fun _ only => only ▸ next

/-- Nothing is asked of a parser that records an error. -/
theorem reads_record (e : SyntaxError) {R : List Token → Unit → Prop} :
    (record e).Reads last s R :=
  fun reached clean => absurd clean (State.record_errors_ne reached)

theorem reads_record_bind (e : SyntaxError) {f : Unit → Parser β} :
    (record e >>= f).Reads last s R' :=
  Reads.bind (R := fun _ _ => False) (reads_record e) fun _ _ _ => False.elim

/-- A node that is made is there in the last state. -/
theorem passes_alloc (construct : Construct) (token : Token) :
    s.Passes (s.alloc construct token).2 last fun read =>
      read = [] ∧ last.ast.Shows id (s.alloc construct token).1 construct token := by
  intro reached _
  have made := Ast.getElem?_faces_alloc s.ast construct token
  exact ⟨[], rfl, rfl, token, Ast.getElem?_faces_mono reached.faces_extend made, rfl⟩

theorem reads_alloc {construct : Construct} {token : Token} {R : List Token → NodeId → Prop}
    (h : ∀ node, last.ast.Shows id node construct token → R [] node) :
    (alloc construct token).Reads last s R := by
  refine (passes_alloc construct token).imp ?_
  rintro _ ⟨rfl, shown⟩
  exact h _ shown

theorem Reads.loop {round : σ → Parser (Round σ β)} {progress : Progresses round}
    (R : σ → List Token → β → Prop)
    (step : ∀ x s, (round x).Reads last s fun read r =>
      match r with
      | .done b => R x read b
      | .again y => ∀ us b, R y us b → R x (read ++ us) b) (x : σ) :
    (loop round progress x).Reads last s (R x) := by
  refine loop_rule (motive := fun x s b t => s.Passes t last (R x · b)) ?_ x s
  intro x s
  have passed := step x s
  have first := (round x).reaches s
  unfold Reads Ensures at passed
  unfold Ensures
  rcases run : (round x).run s with ⟨r, t⟩
  rw [run] at passed first
  cases r with
  | done b => exact passed
  | again y =>
    exact fun b u second rest => passed.trans first second fun read more =>
      rest.imp fun us => more us b

theorem Reads.foldWhile {test : State → Option κ} {body : κ → σ → Parser σ}
    {moves : ∀ k x s, test s = some k → (body k x).Moves s} {x : σ}
    (inv : List Token → σ → Prop) (start : inv [] x)
    (step : ∀ k x t read, test t = some k → inv read x →
      (body k x).Reads last t fun us => inv (read ++ us)) :
    (foldWhile test body moves x).Reads last s inv := by
  refine Ensures.imp (Ensures.foldWhile (fun y t => s.Reaches t ∧ s.Passes t last (inv · y))
    ⟨.refl, fun _ _ => ⟨[], rfl, start⟩⟩ ?_) fun _ _ _ both => both.1.2
  rintro k y t given ⟨reached, passed⟩
  refine (Reads.behind reached passed fun read => step k y t read given).imp ?_
  exact fun _ _ more passed => ⟨reached.trans more, passed⟩

end Parser

namespace Attempt

open Viper.Parser

variable {α β κ : Type} {s last : State} {R : List Token → α → Prop}
  {R' : List Token → β → Prop}

/-- The same for the value of an attempt. -/
def Reads (p : Attempt α) (last s : State) (R : List Token → α → Prop) : Prop :=
  p.Ensures s (fun a t => s.Passes t last (R · a)) fun _ _ => True

theorem Reads.behind {p : Attempt α} {t : State} {P : List Token → Prop} (first : s.Reaches t)
    (passed : s.Passes t last P) (h : ∀ read, P read → p.Reads last t fun us => R (read ++ us)) :
    p.Ensures t (fun a u => s.Passes u last (R · a)) fun _ _ => True := by
  unfold Reads Ensures Parser.Ensures at h
  unfold Ensures Parser.Ensures
  cases outcome : (p.run.run t).1 with
  | error e => trivial
  | ok a =>
    rw [outcome] at h
    exact State.Passes.trans first (p.run.reaches t) passed h

theorem Reads.bind {p : Attempt α} {f : α → Attempt β} (h : p.Reads last s R)
    (next : ∀ a t read, R read a → (f a).Reads last t fun us => R' (read ++ us)) :
    (p >>= f).Reads last s R' :=
  Ensures.bind h (fun a t first passed => Reads.behind first passed (next a t))
    fun _ _ _ _ => trivial

theorem Reads.imp {p : Attempt α} {Q : List Token → α → Prop} (h : p.Reads last s R)
    (weaker : ∀ read a, R read a → Q read a) : p.Reads last s Q :=
  Ensures.imp h (fun a _ _ passed => passed.imp fun read => weaker read a) fun _ _ _ _ => trivial

theorem reads_lift {p : Parser α} (h : p.Reads last s R) :
    (liftM p : Attempt α).Reads last s R := h

theorem reads_pure {a : α} (h : R [] a) : (pure a : Attempt α).Reads last s R :=
  fun _ _ => ⟨[], rfl, h⟩

theorem reads_throw (e : SyntaxError) : (throw e : Attempt α).Reads last s R := trivial

/-- Nothing is asked of an attempt that ends with an error. -/
theorem reads_bind_throw (p : Attempt β) (e : SyntaxError) :
    (p >>= fun _ => throw e : Attempt α).Reads last s R := by
  unfold Reads Ensures Parser.Ensures
  rw [run_bind]
  cases (p.run.run s).1 <;> trivial

theorem reads_look_bind {g : State → κ} {f : κ → Attempt β} (next : (f (g s)).Reads last s R') :
    (liftM (look g) >>= f : Attempt β).Reads last s R' := next

theorem reads_advance_bind {f : Token → Attempt β} (some : s.ahead ≠ [])
    (next : (f s.current).Reads last s.advance fun us => R' (s.current :: us)) :
    (liftM advance >>= f : Attempt β).Reads last s R' :=
  Reads.behind (p := f s.current) (.advance .refl) (passes_advance some) fun _ only => only ▸ next

theorem Reads.foldWhile {test : State → Option κ} {body : κ → α → Attempt α}
    {moves : ∀ k x s, test s = some k → (body k x).run.Moves s} {x : α}
    (inv : List Token → α → Prop) (start : inv [] x)
    (step : ∀ k x t read, test t = some k → inv read x →
      (body k x).Reads last t fun us => inv (read ++ us)) :
    (foldWhile test body moves x).Reads last s inv := by
  have kept : ∀ k y t, test t = some k → s.Reaches t ∧ s.Passes t last (inv · y) →
      (body k y).Ensures t (fun y u => s.Reaches u ∧ s.Passes u last (inv · y)) fun _ _ => True := by
    rintro k y t given ⟨reached, passed⟩
    refine (Reads.behind reached passed fun read => step k y t read given).imp ?_ ?_
    · exact fun _ _ more passed => ⟨reached.trans more, passed⟩
    · exact fun _ _ _ _ => trivial
  refine (Ensures.foldWhile _ ⟨.refl, fun _ _ => ⟨[], rfl, start⟩⟩ kept).imp ?_ ?_
  · exact fun _ _ _ both => both.1.2
  · exact fun _ _ _ _ => trivial

theorem reads_alloc_bind {construct : Construct} {token : Token} {f : NodeId → Attempt β}
    (next : ∀ node, last.ast.Shows id node construct token →
      (f node).Reads last (s.alloc construct token).2 R') :
    (liftM (alloc construct token) >>= f : Attempt β).Reads last s R' := by
  refine Reads.behind (p := f (s.alloc construct token).1) (.alloc _ _ .refl)
    (passes_alloc construct token) ?_
  rintro _ ⟨rfl, shown⟩
  exact next _ shown

/-- What is done with the outcome of an attempt: with an error, something is recorded. -/
theorem Reads.settle {p : Attempt α} {f : Except SyntaxError α → Parser β} (h : p.Reads last s R)
    (ok : ∀ a t read, R read a → (f (.ok a)).Reads last t fun us => R' (read ++ us))
    (error : ∀ e t, (f (.error e)).Reads last t fun _ _ => False) :
    (p.run >>= f).Reads last s R' := by
  unfold Reads Ensures at h
  refine Parser.Ensures.bind h ?_
  intro r t first outcome
  cases r with
  | ok a => exact Parser.Reads.behind first outcome (ok a t)
  | error e =>
    intro reached clean
    have reached' := ((f (.error e)).reaches t).trans reached
    have same := first.errors_eq reached' clean
    obtain ⟨_, _, impossible⟩ := error e t reached (clean.trans same.symm)
    exact impossible.elim

end Attempt
namespace Parser

variable {s last : State}

/-! ### Recovery -/

theorem reads_expect {expected : TokenKind} (isToken : expected ≠ .eof) :
    (expect expected).Reads last s fun read token => read = [token] ∧ token.kind = expected := by
  apply Attempt.reads_look_bind
  split
  · rename_i same
    have some : s.ahead ≠ [] := State.ahead_ne_nil (same ▸ isToken)
    exact Attempt.reads_lift (reads_advance some ⟨rfl, same⟩)
  · exact Attempt.reads_bind_throw _ _

/-- `eat` reads a token of the kind required. -/
theorem reads_eat {expected : TokenKind} (isToken : expected ≠ .eof) :
    (eat expected).Reads last s fun read token => read = [token] ∧ token.kind = expected := by
  apply reads_current_bind
  refine (reads_expect isToken).settle ?_ fun e t => reads_record_bind e
  rintro token t read ⟨rfl, kind⟩
  exact reads_pure ⟨rfl, kind⟩

theorem reads_eat_bind {β : Type} {expected : TokenKind} {f : Token → Parser β}
    {R : List Token → β → Prop} (isToken : expected ≠ .eof)
    (next : ∀ token t, token.kind = expected → (f token).Reads last t fun us => R (token :: us)) :
    (eat expected >>= f).Reads last s R := by
  refine (reads_eat isToken).bind ?_
  rintro token t read ⟨rfl, kind⟩
  exact next token t kind

theorem reads_lift_eat_bind {β : Type} {expected : TokenKind} {f : Token → Attempt β}
    {R : List Token → β → Prop} (isToken : expected ≠ .eof)
    (next : ∀ token t, token.kind = expected → (f token).Reads last t fun us => R (token :: us)) :
    (liftM (eat expected) >>= f : Attempt β).Reads last s R := by
  refine Attempt.Reads.bind (Attempt.reads_lift (reads_eat isToken)) ?_
  rintro token t read ⟨rfl, kind⟩
  exact next token t kind

/-- Where nothing is recorded, what may be recovered from has not failed. -/
theorem reads_recover {p : Attempt NodeId} {R : List Token → NodeId → Prop}
    (h : p.Reads last s R) : (recover p).Reads last s R := by
  refine h.settle ?_ fun e t => reads_record_bind e
  intro id t read holds
  exact reads_pure (by rwa [List.append_nil])

theorem reads_tooDeep {R : List Token → NodeId → Prop} : tooDeep.Reads last s R := by
  apply Attempt.reads_look_bind
  apply Attempt.reads_look_bind
  split
  · exact Attempt.reads_throw _
  · exact Attempt.reads_bind_throw _ _

/-- A list reads its items and the commas between them. -/
theorem reads_commaList {item : Parser NodeId} {τ : Type} {G : List Token → τ → Prop}
    {holds : NodeId → τ → Prop} (h : ∀ t, item.Reads last t (Grammar.Stands G holds)) :
    (commaList item).Reads last s fun read ids =>
      ∃ xs, Grammar.CommaList G read xs ∧ List.Forall₂ holds ids xs := by
  refine (Reads.loop (fun items read ids => ∃ more xs, ids = items.toList ++ more ∧
    Grammar.CommaList G read xs ∧ List.Forall₂ holds more xs) ?_ #[]).imp ?_
  · intro items t
    apply reads_current_bind
    split
    · exact reads_pure ⟨[], [], by simp, .nil, .nil⟩
    · refine (h t).bind ?_
      rintro id u read ⟨x, derived, held⟩
      apply reads_current_bind
      split
      · rename_i comma
        apply reads_advance_bind (State.ahead_ne_nil (by rw [comma]; decide))
        refine reads_pure ?_
        rintro us _ ⟨more, xs, rfl, list, held'⟩
        refine ⟨id :: more, x :: xs, by simp, ?_, .cons held held'⟩
        rw [List.append_assoc]
        exact .cons derived comma list
      · split
        · exact reads_pure ⟨[id], [x], by simp, by simpa using .last derived, .cons held .nil⟩
        · exact reads_record_bind _
  · rintro read ids ⟨more, xs, rfl, list, held⟩
    exact ⟨xs, list, by simpa using held⟩

end Parser
end Viper
