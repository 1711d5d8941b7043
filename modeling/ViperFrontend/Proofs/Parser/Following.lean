/-
# Parses that follow one another

Two parses are compared step by step. A `Simulation` relates the states of the one to the
states of the other, up to a renaming, and says how long the comparison goes on: as long as the
first parse is in a live state. Its laws are about the steps of a parse only. From them each
parser follows itself (`Parser.Follows`): from related states it gives the same value, renamed,
and ends in related states, if the first of its runs ends in a live state. The two parsers need
not be the same; they may differ in the room they have.

An attempt that fails is live if it is so with its error recorded (`Simulation.LiveAfter`), for
that is what becomes of the error.

Key definitions: `Parser.Simulation`, `Parser.Follows`, `Attempt.Follows`.
Key theorems: `Parser.Follows.bind`, `Parser.FollowsIf.loop`, `Attempt.Follows.bind`,
`Parser.follows_recover`.
-/
import ViperFrontend.Proofs.Parser.Renaming

namespace Viper

/-- The outcome of an attempt, renamed. -/
def Renaming.outcome {α β : Type} (ρ : Renaming) (f : α → β) :
    Except SyntaxError α → Except SyntaxError β
  | .ok a => .ok (f a)
  | .error e => .error (ρ.error e)

namespace Parser

/-- A relation between the states of two parses that the steps keep while the first is live. -/
structure Simulation (ρ : Renaming) where
  rel : State → State → Prop
  live : State → Prop
  live_of_reaches : ∀ {s t : State}, s.Reaches t → live t → live s
  current_eq : ∀ {s s' : State}, rel s s' → live s → s'.current = ρ.token s.current
  advance : ∀ {s s' : State}, rel s s' → live s → rel s.advance s'.advance
  record : ∀ {s s' : State} (e : SyntaxError), rel s s' → live (s.record e) →
    rel (s.record e) (s'.record (ρ.error e))
  alloc_fst : ∀ {s s' : State} (c : Construct) (t : Token), rel s s' →
    (s'.alloc (ρ.construct c) (ρ.token t)).1 = ρ.node (s.alloc c t).1
  alloc_snd : ∀ {s s' : State} (c : Construct) (t : Token), rel s s' →
    rel (s.alloc c t).2 (s'.alloc (ρ.construct c) (ρ.token t)).2
  pushRoot : ∀ {s s' : State} (id : NodeId), rel s s' →
    rel (s.pushRoot id) (s'.pushRoot (ρ.node id))

/-- An attempt that ends so is live: if it fails, then with its error recorded. -/
def Simulation.LiveAfter {ρ : Renaming} (S : Simulation ρ) {α : Type} :
    Except SyntaxError α → State → Prop
  | .ok _, t => S.live t
  | .error e, t => S.live (t.record e)

namespace Simulation

variable {ρ : Renaming} (S : Simulation ρ) {s s' t : State}

theorem LiveAfter.live {α : Type} {r : Except SyntaxError α} (h : S.LiveAfter r t) : S.live t := by
  cases r with
  | ok a => exact h
  | error e => exact S.live_of_reaches (.record e .refl) h

/-- The token after the current one may be looked at if the current one is passed. -/
theorem peek_eq (related : S.rel s s') (live : S.live s.advance) : s'.peek = ρ.token s.peek := by
  have alive : S.live s := S.live_of_reaches (.advance .refl) live
  rw [← State.current_advance, ← State.current_advance]
  exact S.current_eq (S.advance related alive) live

end Simulation

variable {α α' β β' σ σ' κ κ' : Type} {ρ : Renaming} {S : Simulation ρ} {s s' : State}
  {f : α → α'} {k : β → β'}

/-- From related states the second parser gives the same as the first and ends in a related
state, if that in which the first ends is alive. -/
def FollowsIf (alive : α → State → Prop) (S : Simulation ρ) (f : α → α') (p : Parser α)
    (p' : Parser α') (s s' : State) : Prop :=
  S.rel s s' → alive (p.run s).1 (p.run s).2 →
    (p'.run s').1 = f (p.run s).1 ∧ S.rel (p.run s).2 (p'.run s').2

/-- From related states the second parser gives the same as the first and ends in a related
state, if the first ends in a live one. -/
def Follows (p : Parser α) (S : Simulation ρ) (f : α → α') (p' : Parser α') (s s' : State) : Prop :=
  FollowsIf (fun _ => S.live) S f p p' s s'

theorem Follows.bind {p : Parser α} {p' : Parser α'} {g : α → Parser β} {g' : α' → Parser β'}
    (h : p.Follows S f p' s s')
    (next : ∀ a t t', p.run s = (a, t) → (g a).Follows S k (g' (f a)) t t') :
    (p >>= g).Follows S k (p' >>= g') s s' := by
  intro related live
  have alive := S.live_of_reaches ((g (p.run s).1).reaches (p.run s).2) live
  obtain ⟨value, after⟩ := h related alive
  rw [run_bind, run_bind, value]
  exact next _ _ _ rfl after live

theorem follows_pure {a : α} {a' : α'} (same : a' = f a) :
    (pure a : Parser α).Follows S f (pure a') s s' :=
  fun related _ => ⟨same, related⟩

theorem follows_ite {c : Prop} [Decidable c] {p q : Parser α} {p' q' : Parser α'}
    (yes : c → p.Follows S f p' s s') (no : ¬ c → q.Follows S f q' s s') :
    (if c then p else q).Follows S f (if c then p' else q') s s' := by
  split
  · exact yes ‹_›
  · exact no ‹_›

theorem follows_current_bind {g : Token → Parser β} {g' : Token → Parser β'}
    (next : (g s.current).Follows S k (g' (ρ.token s.current)) s s') :
    (current >>= g).Follows S k (current >>= g') s s' := by
  intro related live
  have alive := S.live_of_reaches ((current >>= g).reaches s) live
  rw [run_bind, run_bind, run_current, run_current, S.current_eq related alive]
  exact next related live

theorem follows_advance_bind {g : Token → Parser β} {g' : Token → Parser β'}
    (next : ∀ t t', (g s.current).Follows S k (g' (ρ.token s.current)) t t') :
    (advance >>= g).Follows S k (advance >>= g') s s' := by
  intro related live
  have alive := S.live_of_reaches ((advance >>= g).reaches s) live
  rw [run_bind, run_bind, run_advance, run_advance, S.current_eq related alive]
  exact next _ _ (S.advance related alive) live

theorem reaches_advance_bind (g : Token → Parser β) (s : State) :
    s.advance.Reaches ((advance >>= g).run s).2 :=
  (g s.current).reaches s.advance

theorem follows_record (e : SyntaxError) :
    (record e).Follows S id (record (ρ.error e)) s s' :=
  fun related live => ⟨rfl, S.record e related live⟩

/-- A node that is made over renamed parts is the renamed node. -/
theorem follows_alloc {c c' : Construct} {t t' : Token} (construct : c' = ρ.construct c)
    (token : t' = ρ.token t) : (alloc c t).Follows S ρ.node (alloc c' t') s s' := by
  subst construct token
  exact fun related _ => ⟨S.alloc_fst c t related, S.alloc_snd c t related⟩

theorem follows_pushRoot (root : NodeId) :
    (pushRoot root).Follows S id (pushRoot (ρ.node root)) s s' :=
  fun related _ => ⟨rfl, S.pushRoot root related⟩

/-! ### Loops -/

/-- What a round ends with, renamed. -/
def Round.map (g : σ → σ') (f : β → β') : Round σ β → Round σ' β'
  | .again x => .again (g x)
  | .done b => .done (f b)

/-- A round that asks for another one ends alive if its state is live. -/
def Round.Alive (S : Simulation ρ) (alive : β → State → Prop) : Round σ β → State → Prop
  | .again _, t => S.live t
  | .done b, t => alive b t

/-- Loops follow each other if their rounds do. -/
theorem FollowsIf.loop {round : σ → Parser (Round σ β)} {round' : σ' → Parser (Round σ' β')}
    {progress : Progresses round} {progress' : Progresses round'} {alive : β → State → Prop}
    {g : σ → σ'} (live_of_alive : ∀ b t, alive b t → S.live t)
    (step : ∀ x s s', FollowsIf (Round.Alive S alive) S (Round.map g k) (round x) (round' (g x)) s s')
    (x : σ) (s s' : State) :
    FollowsIf alive S k (loop round progress x) (loop round' progress' (g x)) s s' := by
  show S.rel s s' → alive (runLoop round progress x s).1 (runLoop round progress x s).2 →
    ((Parser.loop round' progress' (g x)).run s').1 = k (runLoop round progress x s).1 ∧
      S.rel (runLoop round progress x s).2 ((Parser.loop round' progress' (g x)).run s').2
  fun_induction runLoop round progress x s generalizing s' with
  | case1 x s b t run =>
    intro related ended
    have followed := step x s s' related
    rw [run] at followed
    obtain ⟨value, after⟩ := followed ended
    rw [loop_eq, run_bind, value]
    exact ⟨rfl, after⟩
  | case2 x s y t run ih =>
    intro related ended
    have followed := step x s s' related
    rw [run] at followed
    obtain ⟨value, after⟩ := followed
      (S.live_of_reaches (reaches_runLoop round progress y t) (live_of_alive _ _ ended))
    rw [loop_eq, run_bind, value]
    exact ih _ after ended

theorem Follows.loop {round : σ → Parser (Round σ β)} {round' : σ' → Parser (Round σ' β')}
    {progress : Progresses round} {progress' : Progresses round'} {g : σ → σ'}
    (step : ∀ x s s', (round x).Follows S (Round.map g k) (round' (g x)) s s') (x : σ) :
    (loop round progress x).Follows S k (loop round' progress' (g x)) s s' := by
  refine FollowsIf.loop (fun _ _ live => live) (fun x s s' related ended => ?_) x s s'
  refine step x s s' related ?_
  cases outcome : ((round x).run s).1 <;> rwa [outcome] at ended

theorem Follows.foldWhile {test : State → Option κ} {test' : State → Option κ'}
    {body : κ → σ → Parser σ} {body' : κ' → σ' → Parser σ'}
    {moves : ∀ k x s, test s = some k → (body k x).Moves s}
    {moves' : ∀ k x s, test' s = some k → (body' k x).Moves s} {g : σ → σ'} (view : κ → κ')
    (same : ∀ s s', S.rel s s' → S.live s → test' s' = (test s).map view)
    (step : ∀ k x s s', test s = some k → (body k x).Follows S g (body' (view k) (g x)) s s') (x : σ) :
    (foldWhile test body moves x).Follows S g (foldWhile test' body' moves' (g x)) s s' := by
  refine Follows.loop (fun x s s' related live => ?_) x
  have alive := S.live_of_reaches ((whileRound test body x).reaches s) live
  revert related live
  unfold whileRound
  simp only [run_bind, run_look]
  intro related live
  rw [same s s' related alive]
  cases given : test s with
  | none => exact ⟨rfl, related⟩
  | some k =>
    rw [given] at live
    have again : (body k x >>= fun y => pure (Round.again y) : Parser (Round σ σ)).Follows S
        (Round.map g g) (body' (view k) (g x) >>= fun y => pure (Round.again y)) s s' :=
      (step k x s s' given).bind fun y t t' _ => follows_pure rfl
    exact again related live

end Parser

namespace Attempt

open Viper.Parser

variable {α α' β β' κ κ' : Type} {ρ : Renaming} {S : Simulation ρ} {s s' : State}
  {f : α → α'} {k : β → β'}

/-- The same for attempts, which end alive as `Simulation.LiveAfter` says. -/
def Follows (p : Attempt α) (S : Simulation ρ) (f : α → α') (p' : Attempt α') (s s' : State) : Prop :=
  FollowsIf S.LiveAfter S (ρ.outcome f) p.run p'.run s s'

theorem Follows.bind {p : Attempt α} {p' : Attempt α'} {g : α → Attempt β} {g' : α' → Attempt β'}
    (h : p.Follows S f p' s s')
    (next : ∀ a t t', p.run.run s = (.ok a, t) → (g a).Follows S k (g' (f a)) t t') :
    (p >>= g).Follows S k (p' >>= g') s s' := by
  unfold Follows FollowsIf at h ⊢
  intro related live
  rw [run_bind] at live ⊢
  rw [run_bind]
  rcases outcome : p.run.run s with ⟨r, t⟩
  rw [outcome] at h live
  cases r with
  | ok a =>
    have alive := S.live_of_reaches ((g a).run.reaches t) live.live
    obtain ⟨value, after⟩ := h related alive
    rw [value]
    exact next a t _ outcome after live
  | error e =>
    obtain ⟨value, after⟩ := h related live
    rw [value]
    exact ⟨rfl, after⟩

theorem follows_lift {p : Parser α} {p' : Parser α'} (h : p.Follows S f p' s s') :
    (liftM p : Attempt α).Follows S f (liftM p') s s' := by
  intro related live
  obtain ⟨value, after⟩ := h related live
  exact ⟨congrArg Except.ok value, after⟩

theorem follows_pure {a : α} {a' : α'} (same : a' = f a) :
    (pure a : Attempt α).Follows S f (pure a') s s' :=
  fun related _ => ⟨congrArg Except.ok same, related⟩

theorem follows_throw {e e' : SyntaxError} (same : e' = ρ.error e) :
    (throw e : Attempt α).Follows S f (throw e') s s' :=
  fun related _ => ⟨congrArg Except.error same, related⟩

theorem follows_ite {c : Prop} [Decidable c] {p q : Attempt α} {p' q' : Attempt α'}
    (yes : c → p.Follows S f p' s s') (no : ¬ c → q.Follows S f q' s s') :
    (if c then p else q).Follows S f (if c then p' else q') s s' := by
  split
  · exact yes ‹_›
  · exact no ‹_›

theorem follows_current_bind {g : Token → Attempt β} {g' : Token → Attempt β'}
    (next : (g s.current).Follows S k (g' (ρ.token s.current)) s s') :
    (liftM current >>= g : Attempt β).Follows S k (liftM current >>= g') s s' := by
  unfold Follows FollowsIf at next ⊢
  intro related live
  have alive := S.live_of_reaches ((liftM current >>= g : Attempt β).run.reaches s) live.live
  simp only [run_bind, run_lift, run_current] at live ⊢
  rw [S.current_eq related alive]
  exact next related live

theorem follows_look_bind {view : State → κ} {g : κ → Attempt β} {g' : κ → Attempt β'}
    (same : S.rel s s' → view s' = view s) (next : (g (view s)).Follows S k (g' (view s)) s s') :
    (liftM (look view) >>= g : Attempt β).Follows S k (liftM (look view) >>= g') s s' := by
  unfold Follows FollowsIf at next ⊢
  intro related live
  simp only [run_bind, run_lift, run_look, same related] at live ⊢
  exact next related live

/-- What looks one token further must go on by passing the current one. -/
theorem follows_peek_bind {g : Token → Attempt β} {g' : Token → Attempt β'}
    (passes : s.advance.Reaches ((g s.peek).run.run s).2)
    (next : (g s.peek).Follows S k (g' (ρ.token s.peek)) s s') :
    (liftM peek >>= g : Attempt β).Follows S k (liftM peek >>= g') s s' := by
  unfold Follows FollowsIf at next ⊢
  intro related live
  simp only [run_bind, run_lift, run_peek] at live ⊢
  rw [S.peek_eq related (S.live_of_reaches passes live.live)]
  exact next related live

theorem follows_advance_bind {g : Token → Attempt β} {g' : Token → Attempt β'}
    (next : ∀ t t', (g s.current).Follows S k (g' (ρ.token s.current)) t t') :
    (liftM advance >>= g : Attempt β).Follows S k (liftM advance >>= g') s s' := by
  unfold Follows FollowsIf at next ⊢
  intro related live
  have alive := S.live_of_reaches ((liftM advance >>= g : Attempt β).run.reaches s) live.live
  simp only [run_bind, run_lift, run_advance] at live ⊢
  rw [S.current_eq related alive]
  exact next _ _ (S.advance related alive) live

theorem reaches_advance_bind (g : Token → Attempt β) (s : State) :
    s.advance.Reaches ((liftM advance >>= g : Attempt β).run.run s).2 := by
  rw [run_bind]
  exact (g s.current).run.reaches s.advance

theorem Follows.foldWhile {test : State → Option κ} {test' : State → Option κ'}
    {body : κ → α → Attempt α} {body' : κ' → α' → Attempt α'}
    {moves : ∀ k x s, test s = some k → (body k x).run.Moves s}
    {moves' : ∀ k x s, test' s = some k → (body' k x).run.Moves s} (view : κ → κ')
    (same : ∀ s s', S.rel s s' → S.live s → test' s' = (test s).map view)
    (step : ∀ k x s s', test s = some k → (body k x).Follows S f (body' (view k) (f x)) s s') (x : α) :
    (foldWhile test body moves x).Follows S f (foldWhile test' body' moves' (f x)) s s' := by
  refine FollowsIf.loop (fun _ _ live => live.live) (fun x s s' related ended => ?_) x s s'
  have alive : S.live s := by
    refine S.live_of_reaches ((whileRound test body x).reaches s) ?_
    cases outcome : ((whileRound test body x).run s).1 with
    | again y => rwa [outcome] at ended
    | done r =>
      rw [outcome] at ended
      exact ended.live
  revert related ended
  unfold whileRound
  simp only [Parser.run_bind, run_look]
  intro related ended
  rw [same s s' related alive]
  cases given : test s with
  | none => exact ⟨rfl, related⟩
  | some k =>
    rw [given] at ended
    have followed := step k x s s' given related
    rcases outcome : (body k x).run.run s with ⟨r, t⟩
    simp only [Parser.run_bind, outcome, Option.map_some] at ended followed ⊢
    cases r with
    | ok y =>
      obtain ⟨value, after⟩ := followed ended
      rw [value]
      exact ⟨rfl, after⟩
    | error e =>
      obtain ⟨value, after⟩ := followed ended
      rw [value]
      exact ⟨rfl, after⟩

/-- What is done with the outcome of an attempt. Whoever is given an error records it. -/
theorem Follows.settle {p : Attempt α} {p' : Attempt α'} {g : Except SyntaxError α → Parser β}
    {g' : Except SyntaxError α' → Parser β'} (h : p.Follows S f p' s s')
    (ok : ∀ a t t', p.run.run s = (.ok a, t) → (g (.ok a)).Follows S k (g' (.ok (f a))) t t')
    (error : ∀ e t t', (g (.error e)).Follows S k (g' (.error (ρ.error e))) t t')
    (records : ∀ (e : SyntaxError) (t : State), (t.record e).Reaches ((g (.error e)).run t).2) :
    (p.run >>= g).Follows S k (p'.run >>= g') s s' := by
  unfold Follows FollowsIf at h
  intro related live
  rw [Parser.run_bind] at live ⊢
  rw [Parser.run_bind]
  rcases outcome : p.run.run s with ⟨r, t⟩
  rw [outcome] at h live
  cases r with
  | ok a =>
    obtain ⟨value, after⟩ := h related (S.live_of_reaches ((g (.ok a)).reaches t) live)
    rw [value]
    exact ok a t _ outcome after live
  | error e =>
    obtain ⟨value, after⟩ := h related (S.live_of_reaches (records e t) live)
    rw [value]
    exact error e t _ after live

end Attempt

namespace Parser

variable {β β' : Type} {ρ : Renaming} {S : Simulation ρ} {s s' : State} {k : β → β'}

/-! ### Recovery -/

theorem follows_passOffending : passOffending.Follows S id passOffending s s' := by
  refine follows_current_bind (follows_ite (fun _ => follows_pure rfl) fun _ => ?_)
  exact follows_advance_bind fun t t' => follows_pure rfl

theorem follows_advance : advance.Follows S ρ.token advance s s' := by
  intro related live
  have alive := S.live_of_reaches (advance.reaches s) live
  exact ⟨S.current_eq related alive, S.advance related alive⟩

theorem follows_expect (expected : TokenKind) :
    (expect expected).Follows S ρ.token (expect expected) s s' := by
  refine Attempt.follows_current_bind (Attempt.follows_ite (fun _ => ?_) fun _ => ?_)
  · exact Attempt.follows_lift follows_advance
  · exact (Attempt.follows_lift follows_passOffending).bind fun _ t t' _ => Attempt.follows_throw rfl

theorem kind_eat (expected : TokenKind) (s : State) :
    ((eat expected).run s).1.kind = expected := by
  by_cases same : s.current.kind = expected
  · simp [eat, expect, same]
  · simp [eat, expect, same, Token.missing]

theorem follows_eat {expected : TokenKind} (h : expected.isNumber = false) :
    (eat expected).Follows S ρ.token (eat expected) s s' := by
  refine follows_current_bind ((follows_expect expected).settle ?_ ?_ ?_)
  · exact fun token t t' _ => follows_pure rfl
  · exact fun e t t' => (follows_record e).bind fun _ t t' _ => follows_pure (ρ.token_missing h _).symm
  · exact fun e t => .refl

/-- What follows a token that is required is given one of the kind. -/
theorem follows_eat_bind {expected : TokenKind} {g : Token → Parser β} {g' : Token → Parser β'}
    (h : expected.isNumber = false)
    (next : ∀ token t t', token.kind = expected → (g token).Follows S k (g' (ρ.token token)) t t') :
    (eat expected >>= g).Follows S k (eat expected >>= g') s s' := by
  refine (follows_eat h).bind fun token t t' run => next token t t' ?_
  have kind := kind_eat expected s
  rwa [run] at kind

theorem follows_recover {p p' : Attempt NodeId} (h : p.Follows S ρ.node p' s s') :
    (recover p).Follows S ρ.node (recover p') s s' := by
  refine h.settle ?_ ?_ ?_
  · exact fun id t t' _ => follows_pure rfl
  · exact fun e t t' => (follows_record e).bind fun _ t t' _ =>
      follows_current_bind (follows_alloc rfl rfl)
  · exact fun e t => .alloc _ _ .refl

theorem follows_skipRound (opened : Nat) :
    (skipRound opened).Follows S (Round.map id id) (skipRound opened) s s' := by
  refine follows_advance_bind fun t t' => follows_current_bind ?_
  refine follows_ite (fun _ => follows_pure rfl) fun _ => ?_
  exact follows_ite (fun _ => follows_pure rfl) fun _ => follows_pure rfl

theorem follows_skipConstruct : skipConstruct.Follows S id skipConstruct s s' :=
  Follows.loop (fun opened _ _ => follows_skipRound opened) 0

/-- Where both parses have the same limit, both have too little room alike. -/
theorem follows_tooDeep (limit_eq : ∀ s s', S.rel s s' → s'.limit = s.limit) :
    tooDeep.Follows S ρ.node tooDeep s s' := by
  refine Attempt.follows_current_bind (Attempt.follows_look_bind (limit_eq s s') ?_)
  refine Attempt.follows_ite (fun _ => Attempt.follows_throw rfl) fun _ => ?_
  exact (Attempt.follows_lift follows_skipConstruct).bind fun _ t t' _ => Attempt.follows_throw rfl

theorem follows_listRound {item item' : Parser NodeId}
    (h : ∀ s s', item.Follows S ρ.node item' s s') (items : Array NodeId) :
    (listRound item items).Follows S (Round.map (Array.map ρ.node) (List.map ρ.node))
      (listRound item' (items.map ρ.node)) s s' := by
  refine follows_current_bind (follows_ite (fun _ => follows_pure ?_) fun _ => ?_)
  · simp [Round.map]
  refine (h s s').bind fun id t t' _ => follows_current_bind ?_
  refine follows_ite (fun _ => ?_) fun _ => follows_ite (fun _ => follows_pure ?_) fun _ => ?_
  · exact follows_advance_bind fun t t' => follows_pure (by simp [Round.map])
  · simp [Round.map]
  · exact (follows_record _).bind fun _ t t' _ => follows_pure (by simp [Round.map])

theorem follows_commaList {item item' : Parser NodeId}
    (h : ∀ s s', item.Follows S ρ.node item' s s') :
    (commaList item).Follows S (List.map ρ.node) (commaList item') s s' := by
  have followed : (loop (listRound item) (progresses_listRound item) #[]).Follows S (List.map ρ.node)
      (loop (listRound item') (progresses_listRound item') (Array.map ρ.node #[])) s s' :=
    Follows.loop (fun items _ _ => follows_listRound h items) #[]
  rwa [Array.map_empty] at followed

end Parser
end Viper
