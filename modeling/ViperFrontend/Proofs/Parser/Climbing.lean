/-
# Precedence climbing

The parser of an expression goes from operator to operator. Where two of them have an operand between
them, it asks whether the first one grabs the second (`Precedence.grabs`): if so, the second is
folded into the right operand of the first, by the same parser one level further in, and otherwise the
first is done. Hence an operator takes just as many of those behind it as it grabs in a row
(`Expression.Climbs`), for what is grabbed by something grabbed is grabbed.

The loop that does this has a left operand that is the tree of all it has passed so far, and no
operator that it has passed grabs the next one. So the next one, with all that it grabs, is where the
chain up to there splits (`Expression.gives_fold`), and in the end the parser gives the tree that the
chain is grouped to (`Expression.climbing`). It finds no syntax error in a chain. But two tokens are
read ahead, so if the text of one that stands behind the chain is at fault, that may be recorded while
the chain is passed (`Expression.climbing_reads_behind`).

Only assignments grab what is as loose as themselves. All other operators grab tighter ones, of
which there are nine levels, so it is the assignments that take room.

Key definitions: `Expression.AtChain`, `Expression.Climbs`.
Key theorems: `Expression.gives_fold`, `Expression.climbs_binary`, `Expression.gives_parse`,
`Expression.climbing`.
-/
import Mathlib.Data.List.TakeWhile
import ViperFrontend.Proofs.Grammar.Grouping

namespace Viper

open Viper.Parser Program

/-! ### Attempts that give trees -/

namespace Attempt

variable {s : State} {m n : Nat} {tree tree' : Expr Token}

theorem Gives.bind {p : Attempt NodeId} {g : NodeId → Attempt NodeId} (h : p.Gives s m tree)
    (next : ∀ node t, s.Reaches t → s.Passed m t → t.ast.HoldsExpr id node tree →
      (g node).Gives t n tree') : (p >>= g).Gives s (m + n) tree' := by
  obtain ⟨node, t, run, passed, held⟩ := h
  have reached := p.run.reaches s
  rw [run] at reached
  obtain ⟨node', u, run', passed', held'⟩ := next node t reached passed held
  exact ⟨node', u, (run_bind_of_ok run).trans run', passed.trans passed', held'⟩

theorem gives_advance_bind {g : Token → Attempt NodeId} (next : (g s.current).Gives s.advance n tree) :
    (liftM advance >>= g : Attempt NodeId).Gives s (n + 1) tree := by
  obtain ⟨node, t, run, passed, held⟩ := next
  refine ⟨node, t, run, ?_, held⟩
  rw [Nat.add_comm]
  exact (State.passed_advance s).trans passed

/-- A fold whose test gives nothing. -/
theorem gives_foldWhile_done {κ : Type} {test : State → Option κ} {body : κ → NodeId → Attempt NodeId}
    {moves : ∀ k x s, test s = some k → (body k x).run.Moves s} {left : NodeId}
    (given : test s = none) (held : s.ast.HoldsExpr id left tree) :
    (foldWhile test body moves left).Gives s 0 tree := by
  refine ⟨left, s, ?_, .refl s, held⟩
  rw [foldWhile_eq, run_bind, run_lift, run_look]
  simp only [given]
  rfl

/-- A fold whose test gives something goes through its body and on. -/
theorem gives_foldWhile_again {κ : Type} {test : State → Option κ} {body : κ → NodeId → Attempt NodeId}
    {moves : ∀ k x s, test s = some k → (body k x).run.Moves s} {left : NodeId} {k : κ}
    (given : test s = some k) (next : (body k left >>= foldWhile test body moves).Gives s n tree) :
    (foldWhile test body moves left).Gives s n tree := by
  obtain ⟨node, t, run, passed, held⟩ := next
  refine ⟨node, t, ?_, passed, held⟩
  rw [foldWhile_eq, run_bind, run_lift, run_look]
  simp only [given]
  exact run

end Attempt

namespace Expression

variable {s t : State} {behind : List Scanned} {joint : Joint} {joints taken : List Joint}

/-! ### Standing before a chain -/

/-- A chain is ahead, and then something that does not go on with it. -/
structure AtChain (s : State) (first : Operand) (joints : List Joint) (behind : List Scanned) :
    Prop where
  ahead_eq : s.ahead = (chainTokens first joints).map Scanned.ofToken ++ behind
  noOperator : (nextKind behind).precedence? = none
  ends : Unextended (lastOperand first joints).tokens behind

/-- The same without the first operand. -/
structure Standing (s : State) (joints : List Joint) (behind : List Scanned) : Prop where
  ahead_eq : s.ahead = (jointTokens joints).map Scanned.ofToken ++ behind
  noOperator : (nextKind behind).precedence? = none
  ends : ∀ last ∈ joints.getLast?, Unextended last.operand.tokens behind

/-- An operator does not go on with the operand before it. -/
theorem unextended_of_joints {tokens : List Token} (ends : joints = [] → Unextended tokens behind) :
    Unextended tokens ((jointTokens joints).map Scanned.ofToken ++ behind) := by
  cases joints with
  | nil => exact ends rfl
  | cons joint joints =>
    intro last _ _
    exact TokenKind.endsOperand_of_precedence? (Option.isSome_of_eq_some joint.isOperator)

namespace Standing

theorem operator?_eq (h : Standing s joints behind) :
    operator? s = joints.head?.map (·.power) := by
  unfold operator?
  rw [State.kind_current, h.ahead_eq]
  cases joints with
  | nil => exact h.noOperator
  | cons joint joints => exact joint.isOperator

theorem current_eq (h : Standing s (joint :: joints) behind) : s.current = joint.operator := by
  rw [State.current, h.ahead_eq]
  rfl

theorem ahead_advance (h : Standing s (joint :: joints) behind) :
    s.advance.ahead = joint.operand.tokens.map Scanned.ofToken ++
      ((jointTokens joints).map Scanned.ofToken ++ behind) := by
  rw [State.ahead_advance, h.ahead_eq]
  simp [jointTokens, Joint.tokens]

theorem unextended (h : Standing s (joint :: joints) behind) :
    Unextended joint.operand.tokens ((jointTokens joints).map Scanned.ofToken ++ behind) :=
  unextended_of_joints fun none => h.ends joint (by rw [none]; rfl)

/-- Behind some of the operators with their operands stand the others. -/
theorem of_passed (h : Standing s (taken ++ joints) behind)
    (passed : s.Passed (jointTokens taken).length t) : Standing t joints behind := by
  refine ⟨?_, h.noOperator, fun last mem => h.ends last ?_⟩
  · rw [passed.ahead_eq, h.ahead_eq, jointTokens_append, List.map_append, List.append_assoc]
    exact List.drop_left' (List.length_map _)
  · rw [List.getLast?_append, mem]
    rfl

theorem of_operand (h : Standing s (joint :: joints) behind)
    (passed : s.advance.Passed joint.operand.tokens.length t) : Standing t joints behind := by
  have both := (State.passed_advance s).trans passed
  have split : Standing s ([joint] ++ joints) behind := h
  apply split.of_passed
  simpa [jointTokens, Joint.tokens, Nat.add_comm] using both

end Standing

namespace AtChain

variable {first : Operand}

theorem ahead_first (h : AtChain s first joints behind) :
    s.ahead = first.tokens.map Scanned.ofToken ++
      ((jointTokens joints).map Scanned.ofToken ++ behind) := by
  rw [h.ahead_eq, chainTokens, List.map_append, List.append_assoc]

theorem unextended (h : AtChain s first joints behind) :
    Unextended first.tokens ((jointTokens joints).map Scanned.ofToken ++ behind) := by
  refine unextended_of_joints ?_
  rintro rfl
  exact h.ends

theorem standing (h : AtChain s first joints behind) (passed : s.Passed first.tokens.length t) :
    Standing t joints behind := by
  refine ⟨?_, h.noOperator, fun last mem => ?_⟩
  · rw [passed.ahead_eq, h.ahead_first]
    exact List.drop_left' (List.length_map _)
  · have ends := h.ends
    rwa [lastOperand, mem] at ends

end AtChain

/-! ### One operator -/

/-- The operators that an operator takes, of those in a row behind it. -/
def Joint.takes (joint : Joint) (joints : List Joint) : List Joint :=
  joints.takeWhile fun other => joint.power.grabs other.power

/-- Behind a left operand the parser passes the operator with its operand and all that the operator
takes, and gives the tree over the left operand and the rest. -/
def Climbs (body : Precedence → NodeId → Attempt NodeId) (behind : List Scanned) (joint : Joint)
    (joints : List Joint) : Prop :=
  ∀ s left tree, Standing s (joint :: joints) behind → s.ast.HoldsExpr id left tree →
    (body joint.power left).Gives s (jointTokens (joint :: joint.takes joints)).length
      (.binary joint.operator tree joint.operator.kind (reference joint.operand (joint.takes joints)))

theorem Joint.grabs_of_mem_takes {other : Joint} (mem : other ∈ joint.takes joints) :
    joint.power.grabs other.power = true :=
  List.mem_takeWhile_imp (p := fun other : Joint => joint.power.grabs other.power) mem

/-- What an operator takes and what it leaves. -/
theorem Joint.exists_leaves (joint : Joint) (joints : List Joint) :
    ∃ left, joints = joint.takes joints ++ left ∧
      ∀ next ∈ left.head?, ¬ joint.power.grabs next.power = true := by
  refine ⟨joints.dropWhile fun other => joint.power.grabs other.power, ?_, ?_⟩
  · exact (List.takeWhile_append_dropWhile).symm
  · intro next mem
    have stops := List.head?_dropWhile_not (fun other : Joint => joint.power.grabs other.power) joints
    rw [Option.mem_def.1 mem] at stops
    simpa using stops

/-- What is left by an operator that no earlier one grabs is grabbed by nothing up to there. -/
theorem ungrabbing_append {passed takes : List Joint} {next : Precedence}
    (ungrabbing : ∀ earlier ∈ passed, ¬ earlier.power.grabs joint.power = true)
    (taken : ∀ other ∈ takes, joint.power.grabs other.power = true)
    (leaves : ¬ joint.power.grabs next = true) :
    ∀ earlier ∈ passed ++ joint :: takes, ¬ earlier.power.grabs next = true := by
  intro earlier mem
  rcases List.mem_append.1 mem with mem | _ | ⟨_, mem⟩
  · exact Precedence.not_grabs_trans (ungrabbing earlier mem) leaves
  · exact leaves
  · exact fun further => leaves (Precedence.grabs_trans (taken earlier mem) further)

section Fold

variable {grabbed : Precedence → Bool}

/-- Who grabs an operator also grabs all that this takes. -/
theorem takeWhile_takes {takes rest : List Joint}
    (closed : ∀ p q, grabbed p = true → p.grabs q = true → grabbed q = true)
    (grabs : grabbed joint.power = true)
    (taken : ∀ other ∈ takes, joint.power.grabs other.power = true) :
    (joint :: takes ++ rest).takeWhile (fun joint => grabbed joint.power) =
      joint :: takes ++ rest.takeWhile fun joint => grabbed joint.power := by
  apply List.takeWhile_append_of_pos
  rintro other (_ | ⟨_, mem⟩)
  · exact grabs
  · exact closed _ _ grabs (taken other mem)

/-- **The fold over operators that are grabbed.** As long as none of those that are passed grabs the
next one, the left operand is the tree of what is passed. -/
theorem gives_fold {test : State → Option Precedence} {body : Precedence → NodeId → Attempt NodeId}
    {moves : ∀ k x s, test s = some k → (body k x).run.Moves s}
    (test_eq : ∀ s, test s = (operator? s).filter grabbed)
    (closed : ∀ p q, grabbed p = true → p.grabs q = true → grabbed q = true) (first : Operand)
    {passed : List Joint} {left : NodeId} (here : Standing s joints behind)
    (climbs : ∀ joint others, joint :: others <:+ joints → grabbed joint.power = true →
      Climbs body behind joint others)
    (held : s.ast.HoldsExpr id left (reference first passed))
    (ungrabbing : ∀ next ∈ joints.head?, ∀ earlier ∈ passed, ¬ earlier.power.grabs next.power = true) :
    (Attempt.foldWhile test body moves left).Gives s
      (jointTokens (joints.takeWhile fun joint => grabbed joint.power)).length
      (reference first (passed ++ joints.takeWhile fun joint => grabbed joint.power)) := by
  induction length : joints.length using Nat.strongRecOn generalizing joints passed left s with
  | ind n ih =>
    have given := here.operator?_eq
    -- The fold ends with the operators or before one that is not grabbed; otherwise it goes on behind
    -- an operator and all that this one takes.
    cases joints with
    | nil =>
      have stops : test s = none := by rw [test_eq, given]; rfl
      simpa [jointTokens] using Attempt.gives_foldWhile_done stops held
    | cons joint others =>
      by_cases grabs : grabbed joint.power = true
      · have reads : test s = some joint.power := by rw [test_eq, given]; simp [grabs]
        obtain ⟨rest, parts, stops⟩ := joint.exists_leaves others
        have taken : ∀ other ∈ joint.takes others, joint.power.grabs other.power = true :=
          fun _ => Joint.grabs_of_mem_takes
        -- The chain up to the next operator splits at this one.
        have split : SplitsAt passed joint (joint.takes others) :=
          splitsAt_iff.2 ⟨ungrabbing joint rfl, taken⟩
        have step := climbs joint others List.suffix_rfl grabs s left _ here held
        rw [← reference_of_splitsAt first split] at step
        generalize joint.takes others = takes at parts taken step
        subst parts
        rw [← List.cons_append, takeWhile_takes closed grabs taken, jointTokens_append,
          List.length_append, ← List.append_assoc]
        have here : Standing s (joint :: takes ++ rest) behind := here
        refine Attempt.gives_foldWhile_again reads (step.bind fun node t _ beyond held' => ?_)
        refine ih rest.length ?_ (here.of_passed beyond) ?_ held' ?_ rfl
        · simp only [← length, List.length_cons, List.length_append]
          omega
        · exact fun j js suffix => climbs j js (suffix.trans ⟨joint :: takes, rfl⟩)
        · exact fun next first => ungrabbing_append (ungrabbing joint rfl) taken (stops next first)
      · have stops : test s = none := by rw [test_eq, given]; simp [grabs]
        simpa [grabs, jointTokens] using Attempt.gives_foldWhile_done stops held

end Fold

/-! ### Room -/

/-- So many levels are enough for the operand. -/
def Operand.Fits (operand : Operand) (levels : Nat) : Prop :=
  ∃ room, room ≤ levels ∧ ReadsWhole room operand.tokens operand.tree

theorem Operand.fits (operand : Operand) : operand.Fits operand.room :=
  ⟨_, Nat.le_refl _, operand.whole⟩

theorem Operand.Fits.mono {operand : Operand} {levels levels' : Nat} (fits : operand.Fits levels)
    (more : levels ≤ levels') : operand.Fits levels' := by
  obtain ⟨room, within, whole⟩ := fits
  exact ⟨room, Nat.le_trans within more, whole⟩

/-- An operand of one token takes no room. -/
theorem Operand.fits_zero {operand : Operand} (single : operand.tokens.length = 1) :
    operand.Fits 0 := by
  obtain ⟨token, tokens⟩ := List.length_eq_one_iff.1 single
  have whole := operand.whole
  rw [tokens] at whole
  exact ⟨0, Nat.le_refl 0, by rw [tokens]; exact whole.of_single⟩

/-- The number of assignments among the operators. -/
def assignments (joints : List Joint) : Nat :=
  joints.countP fun joint => joint.power = .assignment

variable {room levels : Nat}

theorem gives_operand {operand : Operand} {after : List Scanned} (fits : operand.Fits levels)
    (enough : levels ≤ room) (ahead : s.ahead = operand.tokens.map Scanned.ofToken ++ after)
    (ends : Unextended operand.tokens after) :
    (primary (.ofRoom room)).Gives s operand.tokens.length operand.tree := by
  obtain ⟨used, within, whole⟩ := fits
  exact gives_primary whole (Nat.le_trans within enough) ahead ends

/-- Room is needed for the levels of precedence that are tighter and for the assignments that are left:
an operator that is grabbed is tighter, or there is one assignment less. -/
theorem enough_of_grabs {next : Joint} {others : List Joint}
    (enough : levels + 10 + assignments (joint :: joints) ≤ room + 1 + joint.power.level)
    (behindIt : next :: others <:+ joints) (grabs : joint.power.grabs next.power = true) :
    levels + 10 + assignments (next :: others) ≤ room + next.power.level := by
  have fewer : assignments (next :: others) ≤ assignments joints := behindIt.sublist.countP_le
  have counted : assignments (joint :: joints) =
      assignments joints + if joint.power = .assignment then 1 else 0 := by
    simp [assignments, List.countP_cons]
  rcases Precedence.grabs_iff.1 grabs with tighter | ⟨zero, zero'⟩
  · omega
  · rw [if_pos (Precedence.level_eq_zero.1 zero)] at counted
    omega

/-! ### Operators and chains -/

theorem gives_alloc_binary {left right : NodeId} {operator : Token} {l r : Expr Token}
    (heldLeft : s.ast.HoldsExpr id left l) (heldRight : s.ast.HoldsExpr id right r) :
    (liftM (alloc (.binary left operator.kind right) operator) : Attempt NodeId).Gives s 0
      (.binary operator l operator.kind r) := by
  refine ⟨_, _, rfl, State.passed_alloc _ _ s, ?_⟩
  have larger := s.ast.faces_extend_alloc (.binary left operator.kind right) operator
  refine .binary ⟨operator, ?_, rfl⟩ (heldLeft.mono larger) (heldRight.mono larger)
  exact s.ast.getElem?_faces_alloc (.binary left operator.kind right) operator

/-- **An operator takes those behind it that it grabs**, if there is room for them. -/
theorem climbs_binary (enough : levels + 10 + assignments (joint :: joints) ≤ room + joint.power.level)
    (fits : ∀ joint' ∈ joint :: joints, joint'.operand.Fits levels) :
    Climbs (fun p left => binary (.ofRoom room) left p) behind joint joints := by
  -- Every operator that is grabbed is one level further in, and needs one level less.
  induction room generalizing joint joints with
  | zero =>
    have := joint.power.level_le
    omega
  | succ room ih =>
    intro s left tree here held
    have small := joint.power.level_le
    have operand : (primary (.ofRoom room)).Gives s.advance joint.operand.tokens.length
        joint.operand.tree :=
      gives_operand (fits joint (by simp)) (by omega) here.ahead_advance here.unextended
    have count : (jointTokens (joint :: joint.takes joints)).length =
        joint.operand.tokens.length + ((jointTokens (joint.takes joints)).length + 0) + 1 := by
      simp [jointTokens, Joint.tokens]
    rw [count]
    refine Attempt.gives_advance_bind (operand.bind fun node t reached passed heldOperand => ?_)
    rw [← reference_nil joint.operand] at heldOperand
    have inner : ∀ next others, next :: others <:+ joints → joint.power.grabs next.power = true →
        Climbs (fun p right => binary (.ofRoom room) right p) behind next others :=
      fun next others suffix grabs => ih (enough_of_grabs enough suffix grabs) fun other mem =>
        fits other (List.mem_cons_of_mem _ (suffix.subset mem))
    have right : (Attempt.foldWhile (fun s => (operator? s).filter joint.power.grabs)
        (fun next right => (Inner.ofRoom (room + 1)).binary right next)
        (moves_binary_of_filter (.ofRoom (room + 1))) node).Gives t
        (jointTokens (joint.takes joints)).length
        (reference joint.operand ([] ++ joint.takes joints)) :=
      gives_fold (fun _ => rfl) (fun _ _ => Precedence.grabs_trans) joint.operand
        (here.of_operand passed) inner heldOperand (by simp)
    refine right.bind fun node' u reached' passed' heldRight => ?_
    rw [here.current_eq]
    refine gives_alloc_binary (held.mono ?_) heldRight
    rw [← State.ast_advance s]
    exact (reached.trans reached').faces_extend

/-- **A chain is parsed to its reference**, if there is room. -/
theorem gives_parse {first : Operand} (here : AtChain s first joints behind)
    (enough : levels + 10 + assignments joints ≤ room) (fits : first.Fits levels)
    (fits' : ∀ joint ∈ joints, joint.operand.Fits levels) :
    (parse (.ofRoom room)).Gives s (chainTokens first joints).length (reference first joints) := by
  obtain ⟨room, rfl⟩ : ∃ inner, room = inner + 1 := ⟨room - 1, by omega⟩
  have operand : (primary (.ofRoom room)).Gives s first.tokens.length first.tree :=
    gives_operand fits (by omega) here.ahead_first here.unextended
  have count : (chainTokens first joints).length = first.tokens.length + (jointTokens joints).length :=
    List.length_append
  rw [count]
  refine operand.bind fun node t reached passed held => ?_
  rw [← reference_nil first] at held
  have inner : ∀ joint others, joint :: others <:+ joints → true = true →
      Climbs (fun p left => binary (.ofRoom (room + 1)) left p) behind joint others := by
    intro joint others suffix _
    have fewer : assignments (joint :: others) ≤ assignments joints := suffix.sublist.countP_le
    exact climbs_binary (by omega) fun other mem => fits' other (suffix.subset mem)
  have total : ∀ s, operator? s = (operator? s).filter fun _ => true := by
    intro s
    cases operator? s <;> rfl
  have all : joints.takeWhile (fun _ => true) = joints := List.takeWhile_eq_self_iff.2 (by simp)
  have fold : (Attempt.foldWhile operator? (fun p left => binary (.ofRoom (room + 1)) left p)
      (moves_binary_of_operator (.ofRoom (room + 1))) node).Gives t
      (jointTokens (joints.takeWhile fun _ => true)).length
      (reference first ([] ++ joints.takeWhile fun _ => true)) :=
    gives_fold total (fun _ _ _ _ => rfl) first (here.standing passed) inner held (by simp)
  rwa [all, List.nil_append] at fold

/-! ### Chains that are not nested too deeply -/

/-- There is a number of levels that is enough for every operand. -/
theorem exists_fits (first : Operand) (joints : List Joint) :
    ∃ levels, first.Fits levels ∧ ∀ joint ∈ joints, joint.operand.Fits levels := by
  induction joints with
  | nil => exact ⟨first.room, first.fits, by simp⟩
  | cons joint joints ih =>
    obtain ⟨levels, fits, fits'⟩ := ih
    refine ⟨max levels joint.operand.room, fits.mono (Nat.le_max_left _ _), fun other mem => ?_⟩
    rcases List.mem_cons.1 mem with rfl | mem
    · exact other.operand.fits.mono (Nat.le_max_right _ _)
    · exact (fits' other mem).mono (Nat.le_max_left _ _)

variable {first : Operand} {n : Nat} {tree : Expr Token}

/-- What is given where there is more room is given as well where nothing is nested too deeply. -/
theorem gives_parse_of_shallow {room' : Nat} (more : room ≤ room')
    (shallow : ¬ (parse (.ofRoom room)).RaisesTooDeep s) (h : (parse (.ofRoom room')).Gives s n tree) :
    (parse (.ofRoom room)).Gives s n tree := by
  obtain ⟨node, t', run', passed, held⟩ := h
  have reached := (parse (.ofRoom room)).run.reaches s
  have reached' := (parse (.ofRoom room')).run.reaches s
  have levels := follows_ofRoom_of_le (unrefused_unlimited s.errors.size) more
  have start : Unlimited s.errors.size s s := ⟨rfl, Nat.le_refl _⟩
  obtain ⟨value, after⟩ := follows_parse levels start (Attempt.liveAfter_of_shallow shallow)
  rcases outcome : (parse (.ofRoom room)).run.run s with ⟨r, t⟩
  rw [outcome] at reached value after
  rw [run'] at reached' value after
  -- The limit is all that the comparison leaves open, and a parse does not change it.
  have same : t = t' := by
    have limit : t'.limit = t.limit := reached'.limit_eq.trans reached.limit_eq.symm
    have state : t' = { t with limit := t'.limit } := after.state_eq
    rw [state, limit]
  cases r with
  | ok node' =>
    obtain rfl : node = node' := by
      have named := Except.ok.inj value
      rwa [Renaming.node_same] at named
    exact ⟨node, t', by rw [outcome, same], passed, held⟩
  | error e => cases value

/-- Passing a chain records what is wrong with the tokens behind it that are read meanwhile, and nothing else.
They are at most two, for two tokens are read ahead, and one of them is read already if the chain is a single
token. -/
theorem AtChain.toList_errors {t : State} (here : AtChain s first joints behind)
    (passed : s.Passed (chainTokens first joints).length t) :
    t.errors.toList = s.errors.toList ++
      ((behind.take 2).drop (2 - (chainTokens first joints).length)).filterMap (·.diagnostic? s.file) := by
  have read : (s.ahead.drop 2).take (chainTokens first joints).length =
      ((chainTokens first joints).map Scanned.ofToken).drop 2 ++
        (behind.take 2).drop (2 - (chainTokens first joints).length) := by
    rw [List.take_drop, here.ahead_eq, Nat.add_comm, ← List.length_map (f := Scanned.ofToken),
      List.take_length_add_append, List.drop_append]
  have sound : (((chainTokens first joints).map Scanned.ofToken).drop 2).filterMap
      (·.diagnostic? s.file) = [] := by
    refine List.filterMap_eq_nil_iff.2 fun x mem => ?_
    obtain ⟨token, -, rfl⟩ := List.mem_map.1 (List.mem_of_mem_drop mem)
    rfl
  rw [passed.toList_errors, read, List.filterMap_append, sound, List.nil_append]

/-- An attempt that gives a node reports nothing as nested too deeply: faults of texts are of another
kind. -/
theorem not_raisesTooDeep_of_gives {p : Attempt NodeId} (h : p.Gives s n tree) :
    ¬ p.RaisesTooDeep s := by
  obtain ⟨node, t, run, passed, -⟩ := h
  rintro (⟨e, u, failed, -⟩ | ⟨d, mem, deep⟩)
  · cases run.symm.trans failed
  · rw [run, passed.toList_errors, ← Array.length_toList, List.drop_left] at mem
    obtain ⟨x, -, noted⟩ := List.mem_filterMap.1 mem
    obtain ⟨fault, -, rfl⟩ := Option.map_eq_some_iff.1 noted
    cases deep

/-- **Precedence climbing groups a chain as its reference does.** Whatever state and room the parser
of expressions starts with, before a chain of operands that are parsed whole on their own, behind which
stands neither an operator nor what goes on with the last operand: if it does not report that a
construct is nested too deeply, it passes the tokens of the chain and no others, records no syntax error,
and gives the node of the reference. All that it records is what is wrong with the texts of those of the two
tokens behind the chain that are read meanwhile. With the room that a parse starts with, a chain of operands
of one token each, among whose operators are no more than 200 assignments, is never reported. -/
theorem climbing (s : State) (first : Operand) (joints : List Joint) (behind : List Scanned)
    (here : AtChain s first joints behind) :
    (∀ room, ¬ (parse (.ofRoom room)).RaisesTooDeep s →
      ∃ node t, (parse (.ofRoom room)).run.run s = (.ok node, t) ∧ t.ahead = behind ∧
        s.Passed (chainTokens first joints).length t ∧
        t.errors.toList = s.errors.toList ++
          ((behind.take 2).drop (2 - (chainTokens first joints).length)).filterMap (·.diagnostic? s.file) ∧
        t.ast.HoldsExpr id node (reference first joints)) ∧
    (first.tokens.length = 1 → (∀ joint ∈ joints, joint.operand.tokens.length = 1) →
      assignments joints ≤ 200 → ¬ (parse (.ofRoom maxNesting)).RaisesTooDeep s) := by
  constructor
  · intro room shallow
    obtain ⟨levels, fits, fits'⟩ := exists_fits first joints
    have large := gives_parse here (Nat.le_max_right room _) fits fits'
    obtain ⟨node, t, run, passed, held⟩ :=
      gives_parse_of_shallow (Nat.le_max_left _ _) shallow large
    refine ⟨node, t, run, ?_, passed, here.toList_errors passed, held⟩
    rw [passed.ahead_eq, here.ahead_eq]
    exact List.drop_left' (List.length_map _)
  · intro single singles few
    have enough : 0 + 10 + assignments joints ≤ maxNesting := by
      unfold maxNesting
      omega
    exact not_raisesTooDeep_of_gives (gives_parse here enough (Operand.fits_zero single)
      fun joint mem => Operand.fits_zero (singles joint mem))

/-- In `a = b - c * d - e` the assignment is the loosest, and the second difference holds the first. -/
theorem climbing_difference :
    let name : String → Operand := fun text => .ofName ⟨.identifier, text, 1⟩ rfl
    let equals : Token := ⟨.assignment, "=", 1⟩
    let dash : Token := ⟨.dash, "-", 1⟩
    let star : Token := ⟨.star, "*", 1⟩
    let joints : List Joint := [⟨equals, .assignment, rfl, name "b"⟩, ⟨dash, .additive, rfl, name "c"⟩,
      ⟨star, .multiplicative, rfl, name "d"⟩, ⟨dash, .additive, rfl, name "e"⟩]
    let s := State.alone (chainTokens (name "a") joints)
    AtChain s (name "a") joints [] ∧ ¬ (parse (.ofRoom maxNesting)).RaisesTooDeep s ∧
      ∃ node t, (parse (.ofRoom maxNesting)).run.run s = (.ok node, t) ∧ t.ahead = [] ∧
        t.errors = #[] ∧ t.ast.HoldsExpr id node
          (.binary equals (name "a").tree .assignment
            (.binary dash
              (.binary dash (name "b").tree .dash
                (.binary star (name "c").tree .star (name "d").tree))
              .dash (name "e").tree)) := by
  intro name equals dash star joints s
  have here : AtChain s (name "a") joints [] := ⟨(List.append_nil _).symm, rfl, fun _ _ _ => rfl⟩
  obtain ⟨gives, never⟩ := climbing s (name "a") joints [] here
  have shallow := never rfl (by simp [joints, name, Operand.ofName]) (by decide)
  obtain ⟨node, t, run, none, -, quiet, held⟩ := gives maxNesting shallow
  refine ⟨here, shallow, node, t, run, none, Array.toList_inj.1 quiet, ?_⟩
  have grouped : reference (name "a") joints = .binary equals (name "a").tree .assignment
      (.binary dash (.binary dash (name "b").tree .dash
        (.binary star (name "c").tree .star (name "d").tree)) .dash (name "e").tree) := by
    simp [joints, equals, dash, star, reference, split?, Joint.splitsBefore, Precedence.level]
  rwa [grouped] at held

/-- Behind `a + b` stands an illegal character. It is read while the chain is passed, and so its fault is
recorded, although there is none in the chain. -/
theorem climbing_reads_behind :
    let name : String → Operand := fun text => .ofName ⟨.identifier, text, 1⟩ rfl
    let joints : List Joint := [⟨⟨.plus, "+", 1⟩, .additive, rfl, name "b"⟩]
    let behind : List Scanned :=
      [⟨⟨.illegal, "@", 1⟩, some (.illegalCharacter '@')⟩, ⟨⟨.semicolon, ";", 1⟩, none⟩]
    let s := State.start maxNesting ⟨"f.viper", "a + b @ ;"⟩
    AtChain s (name "a") joints behind ∧ ¬ (parse (.ofRoom maxNesting)).RaisesTooDeep s ∧
      s.errors = #[] ∧ ((parse (.ofRoom maxNesting)).run.run s).2.errors =
        #[⟨.lexical (.illegalCharacter '@'), 1, "f.viper"⟩] := by
  intro name joints behind s
  have here : AtChain s (name "a") joints behind := ⟨by decide +kernel, rfl, fun _ _ _ => rfl⟩
  have fits : (name "a").Fits 0 := Operand.fits_zero rfl
  have fits' : ∀ joint ∈ joints, joint.operand.Fits 0 := by
    intro joint mem
    rw [List.mem_singleton.1 mem]
    exact Operand.fits_zero rfl
  have gives : (parse (.ofRoom maxNesting)).Gives s 3 (reference (name "a") joints) :=
    gives_parse here (by decide) fits fits'
  exact ⟨here, not_raisesTooDeep_of_gives gives, by decide +kernel, by decide +kernel⟩

end Expression
end Viper
