/-
# The course of a parse

A parser has nodes in hand: those it has made and not yet put into a construct. `State.Course` says
once what a parse can do, from its first state on and with the nodes in hand from the oldest to the
newest. A token is passed, an error is recorded, a construct is made over the newest nodes in hand, an
item is handed over to the file. And where an attempt has failed, its error is recorded, whatever it
left in hand is thrown away, and an invalid node is in hand instead. So nothing is thrown away without
an error, and no invalid node is made without one.

A construct takes its parts in the order in which they were made, but for a struct, which has all its
fields before its procedures (`Construct.Takes`). An integer is made only of an integer literal that the
parse has come to, and has its value (`State.Makes`).

An error is of the token that was the current one when it was made (`SyntaxError.IsAt`), which may be
some tokens back when it is recorded. In between, tokens are passed and nothing else happens, but for a
clause that follows no `if`: that one is parsed as a whole first (`State.Raises`). That a number is too
large is said of an integer literal that has no value (`SyntaxError.MadeAt`).

A node in hand comes with a bound on how deep the tree below it is. The left operand of an operator
and the initializer of a `for` do not count as deeper than their construct (`Construct.continues`),
for the parser finds them on the same level of nesting.

`Parser.Trades` says of one parser that it takes this course, with some nodes in hand before it and
others after it, and hands no item over (`State.Stage`). What holds of every course, holds of every
parse: see the modules on contiguous trees, on invalid nodes and on the depth of trees.

Key definitions: `SyntaxError.IsAt`, `Construct.Takes`, `Parser.State.Course`, `Parser.State.Stage`,
`Parser.Trades`, `Attempt.Trades`.
Key theorems: `Parser.State.Course.reaches`, `Parser.Trades.bind`, `Parser.trades_recover`.
-/
import Mathlib.Logic.Function.Iterate
import ViperFrontend.Proofs.Ast.Depth
import ViperFrontend.Proofs.Parser.Rules

namespace Viper

/-- Some nodes with one bound on the depth of all. -/
def eachWithin (depth : Nat) (ids : List NodeId) : List (NodeId × Nat) :=
  ids.map fun id => (id, depth)

theorem eachWithin_push (depth : Nat) (ids : Array NodeId) (id : NodeId) :
    eachWithin depth (ids.push id).toList = eachWithin depth ids.toList ++ [(id, depth)] := by
  simp [eachWithin]

@[simp]
theorem map_eachWithin (depth : Nat) (ids : List NodeId) :
    (eachWithin depth ids).map (·.1) = ids := by
  simp [eachWithin, Function.comp_def]

theorem lt_of_mem_eachWithin {depth bound : Nat} {ids : List NodeId} {part : NodeId × Nat}
    (mem : part ∈ eachWithin depth ids) (less : depth < bound) : part.2 < bound := by
  obtain ⟨id, -, rfl⟩ := List.mem_map.1 mem
  exact less

/-! ### Errors and their tokens -/

namespace SyntaxFault

/-- The same fault of another token: what was found is that token. -/
def foundAt (token : Token) : SyntaxFault → SyntaxFault
  | .unexpectedToken expected _ _ => .unexpectedToken expected token.kind token.text
  | .expectedExpression _ _ => .expectedExpression token.kind token.text
  | .expectedDataType _ _ => .expectedDataType token.kind token.text
  | .expectedStructMember _ _ => .expectedStructMember token.kind token.text
  | .expectedTopLevelItem _ _ => .expectedTopLevelItem token.kind token.text
  | .missingComma _ => .missingComma token.kind
  | .danglingElseClause _ => .danglingElseClause token.kind
  | .numberTooLarge _ => .numberTooLarge token.text
  | .nestingTooDeep limit => .nestingTooDeep limit

/-- The fault of a clause that follows no `if`. -/
def isDangling : SyntaxFault → Bool
  | .danglingElseClause _ => true
  | _ => false

end SyntaxFault

/-- The error is that of a token. -/
def SyntaxError.IsAt (e : SyntaxError) (token : Token) : Prop :=
  e = ⟨e.fault.foundAt token, token.line⟩

theorem SyntaxError.IsAt.line_eq {e : SyntaxError} {token : Token} (h : e.IsAt token) :
    e.line = token.line :=
  congrArg SyntaxError.line h

/-- The token is a number literal that has no value. -/
def Token.Valueless (token : Token) : Prop :=
  (token.kind = .integer ∧ Literal.integer? token.text = none) ∨
    (token.kind = .float ∧ Literal.float? token.text = none)

/-- The error is made at a token: it is of that token, which is a number literal without a value if a number
is said to be too large. -/
structure SyntaxError.MadeAt (e : SyntaxError) (token : Token) : Prop where
  isAt : e.IsAt token
  tooLarge : ∀ literal, e.fault = .numberTooLarge literal → token.Valueless

/-! ### What a construct is made of -/

namespace Construct

/-- The parts of the construct are the given nodes, in their order. Of a struct the fields are in that
order, and so are the methods. -/
def Takes (construct : Construct) (ids : List NodeId) : Prop :=
  match construct with
  | .structDecl _ fields methods =>
    (fields ++ methods).Perm ids ∧ fields.Sublist ids ∧ methods.Sublist ids
  | construct => construct.children = ids

variable {construct : Construct} {ids : List NodeId}

theorem takes_of_eq (same : construct.children = ids) : construct.Takes ids := by
  subst same
  unfold Takes
  split
  · exact ⟨.refl _, List.sublist_append_left _ _, List.sublist_append_right _ _⟩
  · rfl

theorem Takes.perm (h : construct.Takes ids) : construct.children.Perm ids := by
  unfold Takes at h
  split at h
  · exact h.1
  · exact h ▸ .refl _

end Construct

namespace Parser
namespace State

/-- What a parse from `origin` may make of a token: no invalid node, and a number only of a literal with this
value that it has come to. -/
def Makes (origin : State) (token : Token) (construct : Construct) : Prop :=
  match construct with
  | .invalid => False
  | .integer value => ∃ u, origin.Reaches u ∧ u.current = token ∧ token.kind = .integer ∧
      Literal.integer? token.text = some value
  | .float value => ∃ u, origin.Reaches u ∧ u.current = token ∧ token.kind = .float ∧
      Literal.float? token.text = some value
  | _ => True

theorem Makes.ne_invalid {origin : State} {token : Token} {construct : Construct}
    (h : origin.Makes token construct) : construct ≠ .invalid := by
  rintro rfl
  exact h

/-- An error is made at the current token of `u` and handed on up to `t`. -/
structure Raises (u : State) (e : SyntaxError) (t : State) : Prop where
  here : e.MadeAt u.current
  reaches : u.Reaches t
  prompt : e.fault.isDangling = false → ∃ n, t = advance^[n] u

/-- The states that a parse comes to, with the nodes in hand. -/
inductive Course (origin : State) : State → List (NodeId × Nat) → Prop
  | start : Course origin origin []
  | advance {t : State} {hand : List (NodeId × Nat)} : Course origin t hand →
      Course origin t.advance hand
  /-- an error, some tokens behind the one that it is of -/
  | record {t : State} {hand : List (NodeId × Nat)} {e : SyntaxError} (n : Nat) :
      Course origin t hand → e.MadeAt t.current → Course origin ((advance^[n] t).record e) hand
  /-- a construct over the newest nodes in hand -/
  | alloc {t : State} {kept used : List (NodeId × Nat)} {construct : Construct} {depth : Nat}
      (token : Token) : Course origin t (kept ++ used) → origin.Makes token construct →
      construct.Takes (used.map (·.1)) → (∀ part ∈ used, construct.Covers depth part) →
      Course origin (t.alloc construct token).2 (kept ++ [((t.alloc construct token).1, depth)])
  /-- an invalid node in place of what a failed attempt has left -/
  | recover {u t : State} {kept lost earlier : List (NodeId × Nat)} {e : SyntaxError} :
      Course origin t (kept ++ lost) → Course origin u earlier → u.Raises e t →
      Course origin ((t.record e).alloc .invalid t.current).2 (kept ++ [(t.ast.size, 0)])
  /-- a bound that is less exact -/
  | widen {t : State} {kept : List (NodeId × Nat)} {id : NodeId} {depth depth' : Nat} :
      Course origin t (kept ++ [(id, depth)]) → depth ≤ depth' →
      Course origin t (kept ++ [(id, depth')])
  /-- an item of the file -/
  | pushRoot {t : State} {id : NodeId} : Course origin t [(id, 2 * t.limit + 4)] →
      Course origin (t.pushRoot id) []

variable {origin t : State} {hand kept lost : List (NodeId × Nat)}

theorem reaches_iterate_advance (n : Nat) (s : State) : s.Reaches (advance^[n] s) := by
  induction n with
  | zero => exact .refl
  | succ n ih =>
    rw [Function.iterate_succ_apply']
    exact ih.advance

@[simp]
theorem ast_iterate_advance (n : Nat) (s : State) : (advance^[n] s).ast = s.ast := by
  induction n with
  | zero => rfl
  | succ n ih => rw [Function.iterate_succ_apply', ast_advance, ih]

@[simp]
theorem ast_record (e : SyntaxError) (s : State) : (s.record e).ast = s.ast := rfl

theorem Course.reaches (h : origin.Course t hand) : origin.Reaches t := by
  induction h with
  | start => exact .refl
  | advance _ ih => exact ih.advance
  | record n _ _ ih => exact (ih.trans (reaches_iterate_advance n _)).record _
  | alloc token _ _ _ _ ih => exact ih.alloc _ token
  | recover _ _ _ ih => exact (ih.record _).alloc _ _
  | widen _ _ ih => exact ih
  | pushRoot _ ih => exact ih.pushRoot _

/-- An error was made on the course of a parse and is handed on up to a state. -/
def Raised (origin : State) (e : SyntaxError) (t : State) : Prop :=
  ∃ u hand, Course origin u hand ∧ u.Raises e t

/-- A stage of the course, on which no item is handed over: it has come to `t` with the nodes `hand` in
hand, and the items of the file are still `items`. -/
structure Stage (origin : State) (items : Array NodeId) (t : State) (hand : List (NodeId × Nat)) :
    Prop where
  course : Course origin t hand
  items_eq : t.ast.roots = items

namespace Stage

variable {items : Array NodeId} {used : List (NodeId × Nat)}

theorem advance (h : origin.Stage items t hand) : origin.Stage items t.advance hand :=
  ⟨h.course.advance, by rw [ast_advance, h.items_eq]⟩

theorem record {e : SyntaxError} (n : Nat) (h : origin.Stage items t hand) (here : e.MadeAt t.current) :
    origin.Stage items ((State.advance^[n] t).record e) hand :=
  ⟨h.course.record n here, by rw [ast_record, ast_iterate_advance, h.items_eq]⟩

theorem alloc {construct : Construct} {depth : Nat} (token : Token)
    (h : origin.Stage items t (kept ++ used)) (made : origin.Makes token construct)
    (parts : construct.Takes (used.map (·.1))) (covers : ∀ part ∈ used, construct.Covers depth part) :
    origin.Stage items (t.alloc construct token).2 (kept ++ [((t.alloc construct token).1, depth)]) :=
  ⟨h.course.alloc token made parts covers, h.items_eq⟩

theorem recover {u : State} {earlier : List (NodeId × Nat)} {e : SyntaxError}
    (h : origin.Stage items t (kept ++ lost)) (before : Course origin u earlier) (raises : u.Raises e t) :
    origin.Stage items ((t.record e).alloc .invalid t.current).2 (kept ++ [(t.ast.size, 0)]) :=
  ⟨h.course.recover before raises, h.items_eq⟩

theorem widen {id : NodeId} {depth depth' : Nat} (h : origin.Stage items t (kept ++ [(id, depth)]))
    (le : depth ≤ depth') : origin.Stage items t (kept ++ [(id, depth')]) :=
  ⟨h.course.widen le, h.items_eq⟩

end Stage
end State

variable {α β σ κ : Type}

/-- From `s` the parser takes its course with the nodes `used` in hand, and ends with those in hand
that its value stands for. The nodes that were in hand before are left alone, and so are the items of the
file. -/
def Trades (p : Parser α) (s : State) (used : List (NodeId × Nat))
    (made : α → List (NodeId × Nat)) : Prop :=
  ∀ origin items kept, State.Stage origin items s (kept ++ used) →
    p.Ensures s fun a t => State.Stage origin items t (kept ++ made a)

variable {s : State} {used : List (NodeId × Nat)} {made : α → List (NodeId × Nat)}
  {made' : β → List (NodeId × Nat)}

/-- What follows a parser may use the state in which it ends. -/
theorem Trades.bind_run {p : Parser α} {f : α → Parser β} (h : p.Trades s used made)
    (next : (f (p.run s).1).Trades (p.run s).2 (made (p.run s).1) made') :
    (p >>= f).Trades s used made' :=
  fun origin items kept stage => next origin items kept (h origin items kept stage)

theorem Trades.bind {p : Parser α} {f : α → Parser β} (h : p.Trades s used made)
    (next : ∀ a t, (f a).Trades t (made a) made') : (p >>= f).Trades s used made' :=
  h.bind_run (next _ _)

/-- What a parser does, it does with more nodes in hand. -/
theorem Trades.over {p : Parser α} (h : p.Trades s [] made) (older : List (NodeId × Nat)) :
    p.Trades s older fun a => older ++ made a := by
  intro origin items kept stage
  rw [← List.append_nil older, ← List.append_assoc] at stage
  refine (h origin items (kept ++ older) stage).imp fun a t _ stage => ?_
  rwa [List.append_assoc] at stage

theorem Trades.widen {p : Parser NodeId} {depth depth' : Nat}
    (h : p.Trades s used fun id => [(id, depth)]) (le : depth ≤ depth') :
    p.Trades s used fun id => [(id, depth')] :=
  fun origin items kept stage => (h origin items kept stage).imp fun _ _ _ stage => stage.widen le

theorem trades_pure {a : α} (same : used = made a) : (pure a : Parser α).Trades s used made := by
  rw [same]
  exact fun _ _ _ stage => stage

theorem trades_advance : advance.Trades s used fun _ => used :=
  fun _ _ _ stage => stage.advance

theorem trades_record {e : SyntaxError} (here : e.MadeAt s.current) :
    (record e).Trades s used fun _ => used :=
  fun _ _ _ stage => stage.record 0 here

theorem trades_look_bind {g : State → κ} {f : κ → Parser β} (next : (f (g s)).Trades s used made') :
    (look g >>= f).Trades s used made' := next

theorem trades_alloc {construct : Construct} (token : Token) (depth : Nat)
    (made : ∀ origin : State, origin.Makes token construct)
    (parts : construct.Takes (used.map (·.1)))
    (covers : ∀ part ∈ used, construct.Covers depth part) :
    (alloc construct token).Trades s used fun id => [(id, depth)] :=
  fun origin _ _ stage => stage.alloc token (made origin) parts covers

/-- A construct whose parts are all in hand in their order, each with a smaller bound. -/
theorem trades_node {construct : Construct} (token : Token) {depth : Nat}
    (made : ∀ origin : State, origin.Makes token construct)
    (parts : construct.children = used.map (·.1)) (covers : ∀ part ∈ used, part.2 < depth) :
    (alloc construct token).Trades s used fun id => [(id, depth)] :=
  trades_alloc token depth made (Construct.takes_of_eq parts) fun part mem => .inl (covers part mem)

theorem Trades.loop {round : σ → Parser (Round σ β)} {progress : Progresses round}
    (made : σ → List (NodeId × Nat))
    (step : ∀ x s, (round x).Trades s (made x) fun
      | .again y => made y
      | .done b => made' b) (x : σ) :
    (loop round progress x).Trades s (made x) made' := by
  intro origin items kept
  refine loop_rule (motive := fun x s b t => State.Stage origin items s (kept ++ made x) →
    State.Stage origin items t (kept ++ made' b)) ?_ x s
  intro x s
  have traded := step x s origin items kept
  unfold Ensures at traded ⊢
  rcases run : (round x).run s with ⟨r, t⟩
  rw [run] at traded
  cases r with
  | done b => exact traded
  | again y => exact fun b u _ rest stage => rest (traded stage)

theorem Trades.foldWhile {test : State → Option κ} {body : κ → σ → Parser σ}
    {moves : ∀ k x s, test s = some k → (body k x).Moves s} (made : σ → List (NodeId × Nat))
    (step : ∀ k x s, test s = some k → (body k x).Trades s (made x) made) (x : σ) :
    (foldWhile test body moves x).Trades s (made x) made := by
  intro origin items kept stage
  refine (Ensures.foldWhile (fun x t => State.Stage origin items t (kept ++ made x)) stage ?_).imp ?_
  · exact fun k x t given => step k x t given origin items kept
  · exact fun _ _ _ both => both.1

end Parser

namespace Attempt

open Viper.Parser

variable {α β κ : Type} {s : State} {used : List (NodeId × Nat)}
  {made : α → List (NodeId × Nat)} {made' : β → List (NodeId × Nat)}

/-- The same for an attempt. If it fails, then with an error that was made on the way, and what it has
in hand besides the older nodes is of no use. -/
def Trades (p : Attempt α) (s : State) (used : List (NodeId × Nat))
    (made : α → List (NodeId × Nat)) : Prop :=
  ∀ origin items kept, State.Stage origin items s (kept ++ used) →
    p.Ensures s (fun a t => State.Stage origin items t (kept ++ made a))
      fun e t => origin.Raised e t ∧ ∃ lost, State.Stage origin items t (kept ++ lost)

theorem Trades.bind {p : Attempt α} {f : α → Attempt β} (h : p.Trades s used made)
    (next : ∀ a t, (f a).Trades t (made a) made') : (p >>= f).Trades s used made' := by
  intro origin items kept stage
  refine (h origin items kept stage).bind ?_ ?_
  · exact fun a t _ => next a t origin items kept
  · exact fun _ _ _ failed => failed

/-- Older nodes may be in hand below those that an attempt uses. -/
theorem Trades.above {p : Attempt α} (h : p.Trades s used made) (older : List (NodeId × Nat)) :
    p.Trades s (older ++ used) fun a => older ++ made a := by
  intro origin items kept stage
  rw [← List.append_assoc] at stage
  refine (h origin items (kept ++ older) stage).imp ?_ ?_
  · intro a t _ stage
    rwa [List.append_assoc] at stage
  · rintro e t _ ⟨raised, lost, stage⟩
    rw [List.append_assoc] at stage
    exact ⟨raised, older ++ lost, stage⟩

theorem Trades.over {p : Attempt α} (h : p.Trades s [] made) (older : List (NodeId × Nat)) :
    p.Trades s older fun a => older ++ made a := by
  have traded := h.above older
  rwa [List.append_nil] at traded

theorem Trades.widen {p : Attempt NodeId} {depth depth' : Nat}
    (h : p.Trades s used fun id => [(id, depth)]) (le : depth ≤ depth') :
    p.Trades s used fun id => [(id, depth')] := by
  intro origin items kept stage
  refine (h origin items kept stage).imp ?_ fun _ _ _ failed => failed
  exact fun _ _ _ stage => stage.widen le

theorem trades_lift {p : Parser α} (h : p.Trades s used made) :
    (liftM p : Attempt α).Trades s used made :=
  fun origin items kept stage => ensures_lift (h origin items kept stage)

theorem trades_pure {a : α} (same : used = made a) :
    (pure a : Attempt α).Trades s used made := by
  rw [same]
  exact fun _ _ _ stage => stage

theorem trades_advance_bind {f : Token → Attempt β}
    (next : ∀ t, (f s.current).Trades t used made') :
    (liftM advance >>= f : Attempt β).Trades s used made' :=
  fun origin items kept stage => next _ origin items kept stage.advance

theorem trades_look_bind {g : State → κ} {f : κ → Attempt β}
    (next : (f (g s)).Trades s used made') :
    (liftM (look g) >>= f : Attempt β).Trades s used made' := next

/-- What fails after all, fails with an error at the token where it started. -/
theorem trades_bind_throw {p : Attempt κ} {made'' : κ → List (NodeId × Nat)} {e : SyntaxError}
    (h : p.Trades s used made'') (here : e.MadeAt s.current)
    (prompt : e.fault.isDangling = false → ∃ n, (p.run.run s).2 = State.advance^[n] s) :
    (p >>= fun _ => throw e : Attempt α).Trades s used made := by
  intro origin items kept stage
  have traded := h origin items kept stage
  unfold Ensures Parser.Ensures at traded ⊢
  have reached := p.run.reaches s
  rw [run_bind]
  cases outcome : (p.run.run s).1 with
  | ok a =>
    rw [outcome] at traded
    exact ⟨⟨s, _, stage.course, here, reached, prompt⟩, made'' a, traded⟩
  | error e =>
    rw [outcome] at traded
    exact traded

theorem trades_throw {e : SyntaxError} (here : e.MadeAt s.current) :
    (throw e : Attempt α).Trades s used made :=
  fun _ _ _ stage => ⟨⟨s, _, stage.course, here, .refl, fun _ => ⟨0, rfl⟩⟩, used, stage⟩

theorem Trades.foldWhile {test : State → Option κ} {body : κ → α → Attempt α}
    {moves : ∀ k x s, test s = some k → (body k x).run.Moves s} (made : α → List (NodeId × Nat))
    (step : ∀ k x s, test s = some k → (body k x).Trades s (made x) made) (x : α) :
    (foldWhile test body moves x).Trades s (made x) made := by
  intro origin items kept stage
  refine Ensures.imp (Ensures.foldWhile (fun x t => State.Stage origin items t (kept ++ made x)) stage
    fun k x t given => step k x t given origin items kept) ?_ ?_
  · exact fun _ _ _ both => both.1
  · exact fun _ _ _ failed => failed

end Attempt

namespace Parser

variable {s : State} {used : List (NodeId × Nat)}

/-! ### Recovery -/

/-- Whether a token that is required is there or not, what is in hand stays there. -/
theorem trades_eat (expected : TokenKind) : (eat expected).Trades s used fun _ => used := by
  intro origin items kept stage
  have here : (unexpected expected s.current).MadeAt s.current := ⟨rfl, nofun⟩
  unfold Ensures
  by_cases same : s.current.kind = expected
  · simpa [eat, expect, same] using stage.advance
  · by_cases stays : s.current.kind.isBoundary = true
    · have recorded := stage.record 0 here
      simpa [eat, expect, record, same, passOffending, stays] using recorded
    · have recorded := stage.record 1 here
      simpa [eat, expect, record, same, passOffending, stays] using recorded

/-- **Recovery** throws away what a failed attempt has left, with its error recorded. -/
theorem trades_recover {attempt : Attempt NodeId} {depth : Nat}
    (h : attempt.Trades s used fun id => [(id, depth)]) :
    (recover attempt).Trades s used fun id => [(id, depth)] := by
  intro origin items kept stage
  refine Ensures.bind (h origin items kept stage) fun r t _ outcome => ?_
  cases r with
  | ok id => exact outcome
  | error e =>
    obtain ⟨⟨u, earlier, before, raises⟩, lost, stage⟩ := outcome
    exact (stage.recover before raises).widen (Nat.zero_le depth)

theorem trades_skipConstruct : skipConstruct.Trades s used fun _ => used := by
  refine Trades.loop (fun _ => used) (fun opened t => ?_) 0
  refine trades_advance.bind fun passed t => trades_look_bind ?_
  split
  · exact trades_pure rfl
  · dsimp only
    split <;> exact trades_pure rfl

/-- A construct is skipped token by token. -/
theorem exists_run_skipConstruct (s : State) :
    ∃ n, (skipConstruct.run s).2 = State.advance^[n] s := by
  refine loop_rule (motive := fun _ s _ t => ∃ n, t = State.advance^[n] s) (fun opened s => ?_) 0 s
  have passed : (skipRound opened).Ensures s fun _ t => t = s.advance := by
    show ((if _ then _ else if _ then _ else _ : Parser _).run s.advance).2 = _
    split_ifs <;> rfl
  refine passed.imp fun r t _ advanced => ?_
  cases r with
  | done b => exact ⟨1, advanced⟩
  | again y =>
    rintro b u - ⟨n, rest⟩
    exact ⟨n + 1, by rw [rest, advanced, Function.iterate_succ_apply]⟩

theorem trades_tooDeep {made : NodeId → List (NodeId × Nat)} : tooDeep.Trades s used made := by
  apply Attempt.trades_look_bind
  apply Attempt.trades_look_bind
  split
  · exact Attempt.trades_throw ⟨rfl, nofun⟩
  · refine Attempt.trades_bind_throw (Attempt.trades_lift trades_skipConstruct) ⟨rfl, nofun⟩ fun _ => ?_
    exact exists_run_skipConstruct s

theorem trades_commaList {item : Parser NodeId} {depth : Nat}
    (h : ∀ s, item.Trades s [] fun id => [(id, depth)]) :
    (commaList item).Trades s [] (eachWithin depth) := by
  refine Trades.loop (fun items : Array NodeId => eachWithin depth items.toList) ?_ #[]
  intro items s
  apply trades_look_bind
  split
  · exact trades_pure rfl
  · refine ((h s).over (eachWithin depth items.toList)).bind fun id t => ?_
    rw [← eachWithin_push]
    apply trades_look_bind
    split
    · exact trades_advance.bind fun _ _ => trades_pure rfl
    · split
      · exact trades_pure rfl
      · have here : (⟨.missingComma t.current.kind, t.current.line⟩ : SyntaxError).MadeAt t.current :=
          ⟨rfl, nofun⟩
        exact (trades_record here).bind fun _ _ => trades_pure rfl

end Parser
end Viper
