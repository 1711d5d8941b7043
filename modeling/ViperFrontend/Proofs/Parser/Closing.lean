/-
# Parsers that close their construct

Two parses are compared as long as the first records nothing and has a token left
(`Simulation.Quiet`). Such a comparison breaks off where the first parse passes its last token, so it
matters how a construct ends: with a token that is passed, and with nothing after that but the making of
its node. A parser of that kind closes its construct (`Parser.Closes`, `Attempt.Closes`): if it records
nothing, it does the same in both parses up to its end.

Key definitions: `Parser.Simulation.Quiet`, `Parser.Closes`, `Attempt.Closes`.
Key theorems: `Parser.Closes.bind`, `Parser.closes_eat`, `Attempt.Closes.bind`,
`Attempt.Closes.bind_finishes`.
-/
import ViperFrontend.Proofs.Parser.Following

namespace Viper
namespace Parser

variable {ρ : Renaming}

/-- Where nothing is recorded and a token is left, so it was before. -/
theorem State.Reaches.quiet {s t : State} (reached : s.Reaches t)
    (h : t.errors = #[] ∧ t.ahead ≠ []) : s.errors = #[] ∧ s.ahead ≠ [] := by
  refine ⟨reached.errors_eq_empty h.1, fun none => h.2 ?_⟩
  exact List.suffix_nil.1 (none ▸ reached.ahead_suffix)

/-- With more tokens behind those that are left, the current one is the same. -/
theorem State.current_eq_of_append {s s' : State} {rest : List Scanned}
    (ahead : s'.ahead = s.ahead ++ rest) (left : s.ahead ≠ []) : s'.current = s.current := by
  obtain ⟨x, xs, here⟩ := List.exists_cons_of_ne_nil left
  simp only [State.current, ahead, here, List.cons_append]

/-- The comparison goes on as long as nothing is recorded and a token is left. -/
class Simulation.Quiet (S : Simulation ρ) : Prop where
  live_iff : ∀ s, S.live s ↔ s.errors = #[] ∧ s.ahead ≠ []

variable {α α' β β' : Type} {S : Simulation ρ} {s s' : State} {f : α → α'} {k : β → β'}

/-- If the first parse records nothing, a token is left before the parser, and the second parser
gives the same as the first and leaves what the first leaves. -/
structure Closes (S : Simulation ρ) (f : α → α') (p : Parser α) (p' : Parser α') (s s' : State) :
    Prop where
  left : (p.run s).2.errors = #[] → s.ahead ≠ []
  follows : FollowsIf (fun _ t => t.errors = #[]) S f p p' s s'

section Quiet

variable [quiet : S.Quiet]

theorem Closes.bind {p : Parser α} {p' : Parser α'} {g : α → Parser β} {g' : α' → Parser β'}
    (h : p.Follows S f p' s s')
    (next : ∀ a t t', p.run s = (a, t) → Closes S k (g a) (g' (f a)) t t') :
    Closes S k (p >>= g) (p' >>= g') s s' := by
  have live : ((p >>= g).run s).2.errors = #[] → S.live (p.run s).2 := fun clean =>
    (quiet.live_iff _).2
      ⟨((g (p.run s).1).reaches _).errors_eq_empty clean, (next _ _ s' rfl).left clean⟩
  constructor
  · intro clean none
    have left := ((quiet.live_iff _).1 (live clean)).2
    exact left (List.suffix_nil.1 (none ▸ (p.reaches s).ahead_suffix))
  · intro related clean
    obtain ⟨value, after⟩ := h related (live clean)
    rw [run_bind, run_bind, value]
    exact (next _ _ _ rfl).follows after clean

theorem closes_current_bind {g : Token → Parser β} {g' : Token → Parser β'}
    (next : Closes S k (g s.current) (g' (ρ.token s.current)) s s') :
    Closes S k (current >>= g) (current >>= g') s s' := by
  refine ⟨next.left, fun related clean => ?_⟩
  have quietly : s.errors = #[] := ((g s.current).reaches s).errors_eq_empty clean
  have same := S.current_eq related ((quiet.live_iff s).2 ⟨quietly, next.left clean⟩)
  rw [run_bind, run_bind, run_current, run_current, same]
  exact next.follows related clean

/-- A token that is there is passed in both parses. -/
theorem closes_advance (some : s.ahead ≠ []) : Closes S ρ.token advance advance s s' := by
  refine ⟨fun _ => some, fun related clean => ?_⟩
  have quietly : s.errors = #[] := (advance.reaches s).errors_eq_empty clean
  have live := (quiet.live_iff s).2 ⟨quietly, some⟩
  exact ⟨S.current_eq related live, S.advance related live⟩

/-- A token that is required and is not there is recorded. -/
theorem kind_eq_of_eat {expected : TokenKind} (clean : ((eat expected).run s).2.errors = #[]) :
    s.current.kind = expected := by
  by_contra other
  simp [eat, expect, other, record, State.record] at clean

theorem eat_of_kind {expected : TokenKind} (here : s.current.kind = expected) :
    (eat expected).run s = (s.current, s.advance) := by
  simp [eat, expect, here]

/-- **A construct closes with a token that is required**, which is there if nothing is recorded. -/
theorem closes_eat {expected : TokenKind} (isToken : expected ≠ .eof) :
    Closes S ρ.token (eat expected) (eat expected) s s' := by
  have left : ((eat expected).run s).2.errors = #[] → s.ahead ≠ [] := fun clean =>
    State.ahead_ne_nil (by rw [kind_eq_of_eat clean]; exact isToken)
  refine ⟨left, fun related clean => ?_⟩
  have here := kind_eq_of_eat clean
  have quietly : s.errors = #[] := ((eat expected).reaches s).errors_eq_empty clean
  have live := (quiet.live_iff s).2 ⟨quietly, left clean⟩
  have same := S.current_eq related live
  rw [eat_of_kind here, eat_of_kind (by rw [same]; exact here), same]
  exact ⟨rfl, S.advance related live⟩

end Quiet

/-- What only makes a node of what a parser gives closes if the parser does. -/
theorem Closes.bind_node {p : Parser α} {p' : Parser α'} {c : α → Construct} {c' : α' → Construct}
    {token : α → Token} {token' : α' → Token} (h : Closes S f p p' s s')
    (construct : c' (f (p.run s).1) = ρ.construct (c (p.run s).1))
    (mark : token' (f (p.run s).1) = ρ.token (token (p.run s).1)) :
    Closes S ρ.node (p >>= fun a => alloc (c a) (token a)) (p' >>= fun a => alloc (c' a) (token' a))
      s s' := by
  refine ⟨fun clean => h.left clean, fun related clean => ?_⟩
  obtain ⟨value, after⟩ := h.follows related clean
  rw [run_bind, run_bind, value, construct, mark]
  exact ⟨S.alloc_fst _ _ after, S.alloc_snd _ _ after⟩

/-- The node stands at a token that was read before. -/
theorem Closes.bind_alloc {p : Parser α} {p' : Parser α'} {c : α → Construct} {c' : α' → Construct}
    {t : Token} (h : Closes S f p p' s s') (construct : ∀ a, c' (f a) = ρ.construct (c a)) :
    Closes S ρ.node (p >>= fun a => alloc (c a) t) (p' >>= fun a => alloc (c' a) (ρ.token t)) s s' :=
  h.bind_node (construct _) rfl

/-- What records something closes nothing, so nothing is asked of it. -/
theorem closes_of_errors_ne {p : Parser α} {p' : Parser α'} (h : (p.run s).2.errors ≠ #[]) :
    Closes S f p p' s s' :=
  ⟨fun clean => absurd clean h, fun _ clean => absurd clean h⟩

end Parser

namespace Attempt

open Viper.Parser

variable {ρ : Renaming} {α α' β β' : Type} {S : Simulation ρ} {s s' : State} {f : α → α'}
  {k : β → β'}

/-- The same for attempts, of which nothing is asked if they fail. -/
structure Closes (S : Simulation ρ) (f : α → α') (p : Attempt α) (p' : Attempt α') (s s' : State) :
    Prop where
  left : ∀ a t, p.run.run s = (.ok a, t) → t.errors = #[] → s.ahead ≠ []
  follows : ∀ a t, p.run.run s = (.ok a, t) → t.errors = #[] → S.rel s s' →
    ∃ t', p'.run.run s' = (.ok (f a), t') ∧ S.rel t t'

/-- What gives a value does so in both of its parts. -/
theorem ok_of_bind {p : Attempt α} {g : α → Attempt β} {b : β} {u : State}
    (run : (p >>= g).run.run s = (.ok b, u)) :
    ∃ a t, p.run.run s = (.ok a, t) ∧ (g a).run.run t = (.ok b, u) := by
  rw [run_bind] at run
  rcases outcome : p.run.run s with ⟨r, t⟩
  rw [outcome] at run
  cases r with
  | ok a => exact ⟨a, t, rfl, run⟩
  | error e => cases (Prod.ext_iff.1 run).1

theorem run_bind_of_ok {p : Attempt α} {g : α → Attempt β} {a : α} {t : State}
    (run : p.run.run s = (.ok a, t)) : (p >>= g).run.run s = (g a).run.run t := by
  rw [run_bind, run]

theorem closes_lift {p : Parser α} {p' : Parser α'} (h : Parser.Closes S f p p' s s') :
    Closes S f (liftM p : Attempt α) (liftM p') s s' := by
  constructor
  · rintro a t ⟨⟩ clean
    exact h.left clean
  · rintro a t ⟨⟩ clean related
    obtain ⟨value, after⟩ := h.follows related clean
    exact ⟨_, congrArg (Except.ok · , _) value, after⟩

theorem closes_throw {e : SyntaxError} {p' : Attempt α'} :
    Closes S f (throw e : Attempt α) p' s s' := by
  constructor <;> intro a t run <;> cases run

theorem Closes.bind [quiet : S.Quiet] {p : Attempt α} {p' : Attempt α'} {g : α → Attempt β}
    {g' : α' → Attempt β'} (h : p.Follows S f p' s s')
    (next : ∀ a t t', p.run.run s = (.ok a, t) → Closes S k (g a) (g' (f a)) t t') :
    Closes S k (p >>= g) (p' >>= g') s s' := by
  constructor
  · intro b u run clean none
    obtain ⟨a, t, first, second⟩ := ok_of_bind run
    have reached := p.run.reaches s
    rw [first] at reached
    refine (next a t s' first).left b u second clean ?_
    exact List.suffix_nil.1 (none ▸ reached.ahead_suffix)
  · intro b u run clean related
    obtain ⟨a, t, first, second⟩ := ok_of_bind run
    have reached := (g a).run.reaches t
    rw [second] at reached
    have live : S.live t := (quiet.live_iff t).2
      ⟨reached.errors_eq_empty clean, (next a t s' first).left b u second clean⟩
    unfold Follows FollowsIf at h
    rw [first] at h
    obtain ⟨value, after⟩ := h related live
    rw [run_bind_of_ok (Prod.ext value rfl)]
    exact (next a t _ first).follows b u second clean after

theorem closes_current_bind [quiet : S.Quiet] {g : Token → Attempt β} {g' : Token → Attempt β'}
    (next : Closes S k (g s.current) (g' (ρ.token s.current)) s s') :
    Closes S k (liftM current >>= g : Attempt β) (liftM current >>= g') s s' := by
  refine ⟨next.left, fun b u run clean related => ?_⟩
  have reached := (g s.current).run.reaches s
  rw [show (g s.current).run.run s = _ from run] at reached
  have live := (quiet.live_iff s).2 ⟨reached.errors_eq_empty clean, next.left b u run clean⟩
  obtain ⟨t', value, after⟩ := next.follows b u run clean related
  refine ⟨t', ?_, after⟩
  rw [← S.current_eq related live] at value
  exact value

/-- What looks one token further, and finds one there, must go on by passing the current one. -/
theorem closes_peek_bind [quiet : S.Quiet] {g : Token → Attempt β} {g' : Token → Attempt β'}
    (more : s.advance.ahead ≠ []) (passes : s.advance.Reaches ((g s.peek).run.run s).2)
    (next : Closes S k (g s.peek) (g' (ρ.token s.peek)) s s') :
    Closes S k (liftM peek >>= g : Attempt β) (liftM peek >>= g') s s' := by
  refine ⟨next.left, fun b u run clean related => ?_⟩
  rw [show (g s.peek).run.run s = _ from run] at passes
  have live : S.live s.advance := (quiet.live_iff _).2 ⟨passes.errors_eq_empty clean, more⟩
  obtain ⟨t', value, after⟩ := next.follows b u run clean related
  refine ⟨t', ?_, after⟩
  rw [← S.peek_eq related live] at value
  exact value

/-! ### What is done without a look at the state -/

/-- Whatever state it starts from, the second attempt gives what the first gives, if that does not
fail. So it is if neither looks at its state. -/
def Finishes (S : Simulation ρ) (f : α → α') (p : Attempt α) (p' : Attempt α') : Prop :=
  ∀ s s' a t, S.rel s s' → p.run.run s = (.ok a, t) →
    ∃ t', p'.run.run s' = (.ok (f a), t') ∧ S.rel t t'

theorem finishes_alloc {c c' : Construct} {t t' : Token} (construct : c' = ρ.construct c)
    (token : t' = ρ.token t) :
    Finishes S ρ.node (liftM (alloc c t)) (liftM (alloc c' t')) := by
  rintro s s' _ _ related ⟨⟩
  subst construct token
  refine ⟨_, ?_, S.alloc_snd c t related⟩
  rw [run_lift]
  exact congrArg (Except.ok · , _) (S.alloc_fst c t related)

theorem finishes_pure {a : α} : Finishes S f (pure a) (pure (f a)) := by
  rintro s s' _ _ related ⟨⟩
  exact ⟨s', rfl, related⟩

theorem finishes_throw {e : SyntaxError} {p' : Attempt α'} : Finishes S f (throw e) p' := by
  rintro s s' a t - run
  cases run

/-- An attempt closes its construct if all that it does behind the last token is done without a look
at the state. -/
theorem Closes.bind_finishes {p : Attempt α} {p' : Attempt α'} {g : α → Attempt β}
    {g' : α' → Attempt β'} (h : Closes S f p p' s s')
    (finishes : ∀ a t, p.run.run s = (.ok a, t) → Finishes S k (g a) (g' (f a))) :
    Closes S k (p >>= g) (p' >>= g') s s' := by
  have quiet : ∀ {a t b u}, (g a).run.run t = (.ok b, u) → u.errors = #[] → t.errors = #[] := by
    intro a t b u run clean
    have reached := (g a).run.reaches t
    rw [run] at reached
    exact reached.errors_eq_empty clean
  constructor
  · intro b u run clean
    obtain ⟨a, t, first, second⟩ := ok_of_bind run
    exact h.left a t first (quiet second clean)
  · intro b u run clean related
    obtain ⟨a, t, first, second⟩ := ok_of_bind run
    obtain ⟨t', value, after⟩ := h.follows a t first (quiet second clean) related
    rw [run_bind_of_ok value]
    exact finishes a t first t t' b u after second

end Attempt
end Viper
