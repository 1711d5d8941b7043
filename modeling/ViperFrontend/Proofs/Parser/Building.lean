/-
# Parsers build forests whose slots are filled

Recovery throws half-built constructs away, and their nodes stay in the array of nodes. What
keeps the tree in order is a discipline of the parsers: a node that a parser has made stays
open until one other construct takes it as a part, or for good if it is thrown away.

`State.Open` says of a state that its tree is a forest with every slot filled, and lists the
nodes that are open, oldest first, with the sort of each. A parser turns the nodes it is given
into those it gives (`Parser.Turns`): nothing below the nodes it is given is touched, whatever
they are. An attempt that fails gives none (`Attempt.Turns`).

Key definitions: `Parser.State.Open`, `Parser.Turns`, `Attempt.Turns`.
Key theorems: `Parser.State.Open.alloc`, `Parser.Turns.bind`, `Attempt.Turns.bind`.
-/
import ViperFrontend.Proofs.Ast.Slots
import ViperFrontend.Proofs.Parser.Rules

namespace Viper

/-- Some nodes of one sort. -/
def Role.each (role : Role) (ids : List NodeId) : List (NodeId × Role) :=
  ids.map fun id => (id, role)

theorem Role.each_push (role : Role) (ids : Array NodeId) (id : NodeId) :
    role.each (ids.push id).toList = role.each ids.toList ++ [(id, role)] := by
  simp [Role.each]

theorem Role.map_each (role : Role) (ids : List NodeId) : (role.each ids).map (·.1) = ids := by
  simp [Role.each, Function.comp_def]

namespace Parser

/-- The tree has the given roots and is a forest with every slot filled, and the listed nodes,
from the oldest to the newest, are part of no construct and of the given sorts. -/
structure State.Open (s : State) (roots : Array NodeId) (nodes : List (NodeId × Role)) :
    Prop where
  roots_eq : s.ast.roots = roots
  forest : s.ast.Forest
  slots : ∀ face ∈ s.ast.faces, face.1.Slots s.ast
  increasing : (nodes.map (·.1)).Pairwise (· < ·)
  orphan : ∀ node ∈ nodes, s.ast.Orphan node.1
  plays : ∀ node ∈ nodes, s.ast.Plays node.1 node.2

namespace State.Open

variable {s : State} {roots : Array NodeId} {kept used nodes : List (NodeId × Role)}

theorem sublist (h : s.Open roots nodes) (sub : kept.Sublist nodes) : s.Open roots kept where
  roots_eq := h.roots_eq
  forest := h.forest
  slots := h.slots
  increasing := h.increasing.sublist (sub.map _)
  orphan node mem := h.orphan node (sub.subset mem)
  plays node mem := h.plays node (sub.subset mem)

/-- A state with the same nodes has the same open ones. -/
theorem of_ast_eq {t : State} (h : s.Open roots nodes) (same : t.ast = s.ast) :
    t.Open roots nodes := by
  obtain ⟨roots_eq, forest, slots, increasing, orphan, plays⟩ := h
  constructor
  · rwa [same]
  · rwa [same]
  · rwa [same]
  · exact increasing
  · rwa [same]
  · rwa [same]

theorem pushRoot (h : s.Open roots nodes) (id : NodeId) :
    (s.pushRoot id).Open (roots.push id) nodes where
  roots_eq := congrArg (·.push id) h.roots_eq
  forest := ⟨h.forest.child_lt, h.forest.nodup, h.forest.parent_iff⟩
  slots face mem := (h.slots face mem).mono (List.prefix_refl _)
  increasing := h.increasing
  orphan node mem := ⟨(h.orphan node mem).lt_size, (h.orphan node mem).parent_eq⟩
  plays := h.plays

/-- The sort of the newest node may be said less exactly. -/
theorem imp_last {id : NodeId} {role role' : Role} (h : s.Open roots (kept ++ [(id, role)]))
    (weaker : ∀ construct, role construct = true → role' construct = true) :
    s.Open roots (kept ++ [(id, role')]) where
  roots_eq := h.roots_eq
  forest := h.forest
  slots := h.slots
  increasing := by simpa using h.increasing
  orphan node mem := by
    rcases List.mem_append.1 mem with old | new
    · exact h.orphan node (List.mem_append_left _ old)
    · cases List.mem_singleton.1 new
      exact h.orphan (id, role) (by simp)
  plays node mem := by
    rcases List.mem_append.1 mem with old | new
    · exact h.plays node (List.mem_append_left _ old)
    · cases List.mem_singleton.1 new
      exact (h.plays (id, role) (by simp)).imp weaker

/-- **A construct over open nodes is open in their place.** -/
theorem alloc (h : s.Open roots (kept ++ used)) {construct : Construct} {role : Role}
    (token : Token) (parts : construct.children.Perm (used.map (·.1)))
    (filled : (∀ node ∈ used, s.ast.Plays node.1 node.2) → construct.Slots s.ast)
    (plays : role construct = true) :
    (s.alloc construct token).2.Open roots (kept ++ [((s.alloc construct token).1, role)]) := by
  have increasing := h.increasing
  rw [List.map_append, List.pairwise_append] at increasing
  obtain ⟨kept_lt, used_lt, before⟩ := increasing
  have orphans : ∀ id ∈ construct.children, s.ast.Orphan id := by
    intro id mem
    obtain ⟨node, used, rfl⟩ := List.mem_map.1 (parts.subset mem)
    exact h.orphan node (List.mem_append_right _ used)
  have nodup : construct.children.Nodup := parts.nodup_iff.2 (used_lt.imp Nat.ne_of_lt)
  have larger := Ast.faces_extend_alloc s.ast construct token
  constructor
  · exact h.roots_eq
  · exact h.forest.alloc nodup orphans
  · intro face mem
    refine Construct.Slots.mono larger ?_
    replace mem : face ∈ (s.ast.alloc construct token).2.faces := mem
    rw [Ast.faces_alloc] at mem
    rcases List.mem_append.1 mem with old | new
    · exact h.slots face old
    · cases List.mem_singleton.1 new
      exact filled fun node used => h.plays node (List.mem_append_right _ used)
  · rw [List.map_append, List.pairwise_append]
    refine ⟨kept_lt, by simp, ?_⟩
    intro a old b new
    obtain ⟨node, mem, rfl⟩ := List.mem_map.1 old
    cases List.mem_singleton.1 new
    exact (h.orphan node (List.mem_append_left _ mem)).lt_size
  · intro node mem
    rcases List.mem_append.1 mem with old | new
    · refine (h.orphan node (List.mem_append_left _ old)).alloc token ?_
      intro part
      exact Nat.lt_irrefl _ (before node.1 (List.mem_map_of_mem old) node.1 (parts.subset part))
    · cases List.mem_singleton.1 new
      exact Ast.orphan_alloc token fun id part => (orphans id part).lt_size
  · intro node mem
    rcases List.mem_append.1 mem with old | new
    · exact (h.plays node (List.mem_append_left _ old)).mono larger
    · cases List.mem_singleton.1 new
      exact Ast.plays_alloc s.ast token plays

end State.Open

variable {α β σ κ : Type}

/-- From `s` the parser turns the open nodes `used` into those its value stands for. The nodes
opened before them stay open, whatever they are. -/
def Turns (p : Parser α) (s : State) (used : List (NodeId × Role))
    (made : α → List (NodeId × Role)) : Prop :=
  ∀ roots kept, s.Open roots (kept ++ used) → p.Ensures s fun a t => t.Open roots (kept ++ made a)

variable {s : State} {used : List (NodeId × Role)} {made : α → List (NodeId × Role)}
  {made' : β → List (NodeId × Role)}

/-- What follows a parser may use the state in which it ends. -/
theorem Turns.bind_run {p : Parser α} {f : α → Parser β} (h : p.Turns s used made)
    (next : (f (p.run s).1).Turns (p.run s).2 (made (p.run s).1) made') :
    (p >>= f).Turns s used made' :=
  fun roots kept opened => next roots kept (h roots kept opened)

theorem Turns.bind {p : Parser α} {f : α → Parser β} (h : p.Turns s used made)
    (next : ∀ a t, (f a).Turns t (made a) made') : (p >>= f).Turns s used made' :=
  h.bind_run (next _ _)

/-- What a parser does, it does above any open nodes. -/
theorem Turns.above {p : Parser α} (h : p.Turns s used made) (older : List (NodeId × Role)) :
    p.Turns s (older ++ used) fun a => older ++ made a := by
  intro roots kept opened
  rw [← List.append_assoc] at opened
  refine (h roots (kept ++ older) opened).imp ?_
  intro a t _ opened
  rwa [List.append_assoc] at opened

/-- The sort of the node that is made may be said less exactly. -/
theorem Turns.weaken {p : Parser NodeId} {role role' : Role}
    (h : p.Turns s used fun id => [(id, role)])
    (weaker : ∀ construct, role construct = true → role' construct = true) :
    p.Turns s used fun id => [(id, role')] :=
  fun roots kept opened => (h roots kept opened).imp fun _ _ _ opened => opened.imp_last weaker

theorem Turns.over {p : Parser α} (h : p.Turns s [] made) (older : List (NodeId × Role)) :
    p.Turns s older fun a => older ++ made a := by
  have turned := h.above older
  rwa [List.append_nil] at turned

/-- A parser that makes no node leaves the open ones as they are. -/
theorem turns_of_ast_eq {p : Parser α} (same : (p.run s).2.ast = s.ast) :
    p.Turns s used fun _ => used :=
  fun _ _ opened => opened.of_ast_eq same

theorem turns_pure {a : α} (same : used = made a) : (pure a : Parser α).Turns s used made := by
  rw [same]
  exact fun _ _ opened => opened

theorem turns_advance : advance.Turns s used fun _ => used :=
  turns_of_ast_eq (State.ast_advance s)

theorem turns_current_bind {f : Token → Parser β} (next : (f s.current).Turns s used made') :
    (current >>= f).Turns s used made' := next

theorem turns_record (e : SyntaxError) : (record e).Turns s used fun _ => used :=
  turns_of_ast_eq rfl

theorem turns_alloc {construct : Construct} (token : Token) (role : Role)
    (parts : construct.children.Perm (used.map (·.1)))
    (filled : (∀ node ∈ used, s.ast.Plays node.1 node.2) → construct.Slots s.ast)
    (plays : role construct = true) :
    (alloc construct token).Turns s used fun id => [(id, role)] :=
  fun _ _ opened => opened.alloc token parts filled plays

theorem Turns.loop {round : σ → Parser (Round σ β)} {progress : Progresses round}
    (made : σ → List (NodeId × Role))
    (step : ∀ x s, (round x).Turns s (made x) fun
      | .again y => made y
      | .done b => made' b) (x : σ) :
    (loop round progress x).Turns s (made x) made' := by
  intro roots kept
  refine loop_rule (motive := fun x s b t => s.Open roots (kept ++ made x) → t.Open roots (kept ++ made' b))
    ?_ x s
  intro x s
  have turned := step x s roots kept
  unfold Ensures at turned ⊢
  rcases run : (round x).run s with ⟨r, t⟩
  rw [run] at turned
  cases r with
  | done b => exact turned
  | again y => exact fun b u _ rest opened => rest (turned opened)

theorem Turns.foldWhile {test : State → Option κ} {body : κ → σ → Parser σ}
    {moves : ∀ k x s, test s = some k → (body k x).Moves s} (made : σ → List (NodeId × Role))
    (step : ∀ k x s, test s = some k → (body k x).Turns s (made x) made) (x : σ) :
    (foldWhile test body moves x).Turns s (made x) made := by
  intro roots kept opened
  refine (Ensures.foldWhile (fun x t => t.Open roots (kept ++ made x)) opened ?_).imp ?_
  · exact fun k x t given => step k x t given roots kept
  · exact fun _ _ _ both => both.1

end Parser

namespace Attempt

open Viper.Parser

variable {α β κ : Type} {s : State} {used : List (NodeId × Role)}
  {made : α → List (NodeId × Role)} {made' : β → List (NodeId × Role)}

/-- The same for an attempt. If it fails, the nodes it was given are thrown away with all it
has made. -/
def Turns (p : Attempt α) (s : State) (used : List (NodeId × Role))
    (made : α → List (NodeId × Role)) : Prop :=
  ∀ roots kept, s.Open roots (kept ++ used) →
    p.Ensures s (fun a t => t.Open roots (kept ++ made a)) fun _ t => t.Open roots kept

theorem Turns.bind {p : Attempt α} {f : α → Attempt β} (h : p.Turns s used made)
    (next : ∀ a t, (f a).Turns t (made a) made') : (p >>= f).Turns s used made' := by
  intro roots kept opened
  refine (h roots kept opened).bind ?_ ?_
  · exact fun a t _ => next a t roots kept
  · exact fun _ _ _ opened => opened

/-- What follows an attempt may use what its value is. -/
theorem Turns.bind_run {p : Attempt α} {f : α → Attempt β} (h : p.Turns s used made)
    (next : ∀ a t, p.run.run s = (.ok a, t) → (f a).Turns t (made a) made') :
    (p >>= f).Turns s used made' := by
  intro roots kept opened
  have turned := h roots kept opened
  unfold Ensures Parser.Ensures at turned ⊢
  rw [run_bind]
  rcases run : p.run.run s with ⟨r, t⟩
  rw [run] at turned
  cases r with
  | ok a => exact next a t run roots kept turned
  | error e => exact turned

theorem Turns.above {p : Attempt α} (h : p.Turns s used made) (older : List (NodeId × Role)) :
    p.Turns s (older ++ used) fun a => older ++ made a := by
  intro roots kept opened
  rw [← List.append_assoc] at opened
  refine (h roots (kept ++ older) opened).imp ?_ ?_
  · intro a t _ opened
    rwa [List.append_assoc] at opened
  · exact fun _ _ _ opened => opened.sublist (List.sublist_append_left _ _)

theorem Turns.weaken {p : Attempt NodeId} {role role' : Role}
    (h : p.Turns s used fun id => [(id, role)])
    (weaker : ∀ construct, role construct = true → role' construct = true) :
    p.Turns s used fun id => [(id, role')] := by
  intro roots kept opened
  refine (h roots kept opened).imp ?_ fun _ _ _ opened => opened
  exact fun _ _ _ opened => opened.imp_last weaker

theorem Turns.over {p : Attempt α} (h : p.Turns s [] made) (older : List (NodeId × Role)) :
    p.Turns s older fun a => older ++ made a := by
  have turned := h.above older
  rwa [List.append_nil] at turned

theorem turns_lift {p : Parser α} (h : p.Turns s used made) :
    (liftM p : Attempt α).Turns s used made :=
  fun roots kept opened => ensures_lift (h roots kept opened)

theorem turns_pure {a : α} (same : used = made a) : (pure a : Attempt α).Turns s used made := by
  rw [same]
  exact fun _ _ opened => opened

theorem turns_throw (e : SyntaxError) : (throw e : Attempt α).Turns s used made :=
  fun _ _ opened => opened.sublist (List.sublist_append_left _ _)

theorem turns_advance_bind {f : Token → Attempt β}
    (next : ∀ t, (f s.current).Turns t used made') :
    (liftM advance >>= f : Attempt β).Turns s used made' :=
  fun roots kept opened => next _ roots kept (opened.of_ast_eq (State.ast_advance s))

theorem turns_look_bind {g : State → κ} {f : κ → Attempt β} (next : (f (g s)).Turns s used made') :
    (liftM (look g) >>= f : Attempt β).Turns s used made' := next

theorem Turns.foldWhile {test : State → Option κ} {body : κ → α → Attempt α}
    {moves : ∀ k x s, test s = some k → (body k x).run.Moves s} (made : α → List (NodeId × Role))
    (step : ∀ k x s, test s = some k → (body k x).Turns s (made x) made) (x : α) :
    (foldWhile test body moves x).Turns s (made x) made := by
  intro roots kept opened
  refine Ensures.imp (Ensures.foldWhile (fun x t => t.Open roots (kept ++ made x)) opened
    fun k x t given => step k x t given roots kept) ?_ ?_
  · exact fun _ _ _ both => both.1
  · exact fun _ _ _ opened => opened

end Attempt

namespace Parser

variable {s : State} {used : List (NodeId × Role)}

/-! ### Recovery -/

theorem ast_passOffending (s : State) : (passOffending.run s).2.ast = s.ast := by
  by_cases boundary : s.current.kind.isBoundary = true <;> simp [passOffending, boundary]

theorem ast_expect (expected : TokenKind) (s : State) :
    ((expect expected).run.run s).2.ast = s.ast := by
  by_cases same : s.current.kind = expected
  · simp [expect, same]
  · simp [expect, same, ast_passOffending]

theorem turns_eat (expected : TokenKind) : (eat expected).Turns s used fun _ => used := by
  apply turns_of_ast_eq
  have same := ast_expect expected s
  unfold eat
  rw [run_bind, run_current, run_bind]
  rcases outcome : (expect expected).run.run s with ⟨r, t⟩
  rw [outcome] at same
  cases r <;> exact same

theorem turns_recover {attempt : Attempt NodeId} {role : Role}
    (h : attempt.Turns s used fun id => [(id, role)]) :
    (recover attempt).Turns s used fun id => [(id, role.orInvalid)] := by
  intro roots kept opened
  refine Ensures.bind (h roots kept opened) ?_
  intro r t _ opened
  cases r with
  | ok id => exact opened.imp_last fun construct plays => by simp [Role.orInvalid, plays]
  | error e =>
    refine (turns_record e).bind (fun _ t => turns_current_bind ?_) roots kept
      ((List.append_nil kept).symm ▸ opened)
    exact turns_alloc _ _ (.refl _) (fun _ => trivial) (by simp [Role.orInvalid])

/-- A round of a skip passes one token and does nothing else. -/
theorem run_skipRound (opened : Nat) (s : State) :
    ((skipRound opened).run s).2 = s.advance := by
  by_cases ends : endsSkip opened s.current.kind = true
  · simp [skipRound, ends]
  · by_cases stops : s.advance.current.kind = .eof ∨
        balanceAfter opened s.current.kind = 0 ∧ s.advance.current.kind.isClosing = true
    · simp [skipRound, ends, stops]
    · simp [skipRound, ends, stops]

theorem ast_skipConstruct (s : State) : (skipConstruct.run s).2.ast = s.ast := by
  refine loop_rule (motive := fun _ s _ t => t.ast = s.ast) ?_ 0 s
  intro opened s
  have passed := (congrArg State.ast (run_skipRound opened s)).trans (State.ast_advance s)
  unfold Ensures
  rcases run : (skipRound opened).run s with ⟨r, t⟩
  rw [run] at passed
  cases r with
  | done _ => exact passed
  | again _ => exact fun _ u _ same => same.trans passed

theorem turns_tooDeep {made : NodeId → List (NodeId × Role)} :
    tooDeep.Turns s used made := by
  unfold tooDeep
  apply Attempt.turns_look_bind
  apply Attempt.turns_look_bind
  split
  · exact Attempt.turns_throw _
  · refine (Attempt.turns_lift (turns_of_ast_eq (ast_skipConstruct s))).bind fun _ _ => ?_
    exact Attempt.turns_throw _

theorem turns_commaList {item : Parser NodeId} {role : Role}
    (h : ∀ s, item.Turns s [] fun id => [(id, role)]) :
    (commaList item).Turns s [] role.each := by
  refine Turns.loop (fun items : Array NodeId => role.each items.toList) ?_ #[]
  intro items s
  apply turns_current_bind
  split
  · exact turns_pure rfl
  · refine ((h s).over (role.each items.toList)).bind fun id t => ?_
    rw [← Role.each_push]
    apply turns_current_bind
    split
    · exact turns_advance.bind fun _ _ => turns_pure rfl
    · split
      · exact turns_pure rfl
      · exact (turns_record _).bind fun _ _ => turns_pure rfl

end Parser

end Viper
