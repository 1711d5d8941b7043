/-
# How a chain of operators groups

A chain is an operand and then, any number of times, a binary operator and an operand. Its tree is
fixed by one rule: the chain splits at an operator that holds its operands loosest, the first of
these if they are assignments and the last otherwise (`SplitsAt`); what stands on either side is
grouped in the same way. That is the reference that the parser is held to (`reference`). It speaks of
the whole chain, while the parser goes from operator to operator and only asks of two neighbours
which one takes the operand between them (`Precedence.grabs`). Both say the same of a place in the
chain: nothing before it grabs it, and it grabs everything behind (`splitsAt_iff`).

Key definitions: `Expression.Operand`, `Expression.Joint`, `Expression.SplitsAt`,
`Expression.reference`.
Key theorems: `Expression.splitsAt_iff`, `Expression.SplitsAt.unique`,
`Expression.reference_of_splitsAt`.
-/
import ViperFrontend.Proofs.Grammar.Soundness
import ViperFrontend.Proofs.Parser.Embedding

namespace Viper

open Viper.Parser Program

/-! ### Levels -/

namespace Precedence

theorem level_le (p : Precedence) : p.level ≤ 9 := by
  cases p <;> decide

theorem level_injective {p q : Precedence} (same : p.level = q.level) : p = q := by
  revert same
  cases p <;> cases q <;> decide

theorem level_eq_zero {p : Precedence} : p.level = 0 ↔ p = .assignment := by
  cases p <;> decide

/-- An operator grabs what is tighter, and an assignment also another assignment. -/
theorem grabs_iff {p q : Precedence} :
    p.grabs q = true ↔ p.level < q.level ∨ p.level = 0 ∧ q.level = 0 := by
  cases p <;> cases q <;> decide

theorem grabs_trans {p q r : Precedence} (first : p.grabs q = true) (second : q.grabs r = true) :
    p.grabs r = true := by
  rw [grabs_iff] at first second ⊢
  omega

theorem not_grabs_trans {p q r : Precedence} (first : ¬ p.grabs q = true)
    (second : ¬ q.grabs r = true) : ¬ p.grabs r = true := by
  rw [grabs_iff] at first second ⊢
  omega

/-- What grabs an operator grabs whatever does not grab that operator itself. -/
theorem grabs_of_not_grabs {p q r : Precedence} (first : p.grabs q = true)
    (second : ¬ r.grabs q = true) : p.grabs r = true := by
  rw [grabs_iff] at first second ⊢
  omega

end Precedence

namespace Expression

/-! ### Chains -/

/-- An operand: tokens that are parsed whole on their own, and what they are parsed to. -/
structure Operand where
  tokens : List Token
  tree : Expr Token
  /-- levels that are enough for it -/
  room : Nat
  whole : ReadsWhole room tokens tree

/-- **Whatever tokens are parsed whole on their own, and without a diagnostic, are an operand.** -/
theorem Operand.exists_of_run {tokens : List Token} {room : Nat} {node : NodeId} {t : State}
    (run : (primary (.ofRoom room)).run.run (.alone tokens) = (.ok node, t)) (none : t.ahead = [])
    (clean : t.errors = #[]) : ∃ operand : Operand, operand.tokens = tokens := by
  have sound : (Inner.ofRoom room).Sound t := sound_ofRoom room
  have reads := reads_primary (s := .alone tokens) sound
  unfold Attempt.Reads Attempt.Ensures Parser.Ensures at reads
  rw [run] at reads
  obtain ⟨_, -, tree, -, held⟩ := reads .refl clean
  exact ⟨⟨tokens, tree, room, node, t, run, none, clean, held⟩, rfl⟩

/-- A name is an operand. -/
def Operand.ofName (token : Token) (isName : token.kind = .identifier) : Operand where
  tokens := [token]
  tree := .name token token.text
  room := 0
  whole := by
    obtain ⟨kind, text, line⟩ := token
    obtain rfl : kind = .identifier := isName
    exact ⟨0, _, rfl, rfl, rfl, .name ⟨_, rfl, rfl⟩⟩

/-- A binary operator and the operand behind it. -/
structure Joint where
  operator : Token
  power : Precedence
  isOperator : operator.kind.precedence? = some power
  operand : Operand

def Joint.tokens (joint : Joint) : List Token :=
  joint.operator :: joint.operand.tokens

/-- The tokens of operators with the operands behind them. -/
def jointTokens (joints : List Joint) : List Token :=
  joints.flatMap Joint.tokens

/-- The tokens of a chain. -/
def chainTokens (first : Operand) (joints : List Joint) : List Token :=
  first.tokens ++ jointTokens joints

/-- The operand at the end of a chain. -/
def lastOperand (first : Operand) (joints : List Joint) : Operand :=
  (joints.getLast?.map (·.operand)).getD first

theorem jointTokens_append (joints others : List Joint) :
    jointTokens (joints ++ others) = jointTokens joints ++ jointTokens others :=
  List.flatMap_append

/-! ### Where a chain splits -/

/-- The operator between these joints is one of the loosest: the first of them if they are
assignments, and the last otherwise. -/
structure SplitsAt (before : List Joint) (joint : Joint) (after : List Joint) : Prop where
  loosest : ∀ other ∈ before ++ after, joint.power.level ≤ other.power.level
  leftmost : joint.power = .assignment → ∀ other ∈ before, other.power ≠ joint.power
  rightmost : joint.power ≠ .assignment → ∀ other ∈ after, other.power ≠ joint.power

variable {before after before' after' joints : List Joint} {joint joint' : Joint}

/-- **A chain splits where nothing before grabs and everything behind is grabbed.** -/
theorem splitsAt_iff : SplitsAt before joint after ↔
    (∀ other ∈ before, ¬ other.power.grabs joint.power = true) ∧
      ∀ other ∈ after, joint.power.grabs other.power = true := by
  simp only [Precedence.grabs_iff]
  constructor
  · rintro ⟨loosest, leftmost, rightmost⟩
    refine ⟨fun other mem => ?_, fun other mem => ?_⟩
    · have above := loosest other (List.mem_append_left _ mem)
      have different : joint.power.level = 0 → other.power.level ≠ joint.power.level :=
        fun zero same => leftmost (Precedence.level_eq_zero.1 zero) other mem
          (Precedence.level_injective same)
      omega
    · have above := loosest other (List.mem_append_right _ mem)
      have different : joint.power.level ≠ 0 → other.power.level ≠ joint.power.level :=
        fun nonzero same => rightmost (mt Precedence.level_eq_zero.2 nonzero) other mem
          (Precedence.level_injective same)
      omega
  · rintro ⟨ungrabbing, grabbed⟩
    refine ⟨fun other mem => ?_, fun isAssignment other mem same => ?_,
      fun isOther other mem same => ?_⟩
    · rcases List.mem_append.1 mem with mem | mem
      · have := ungrabbing other mem
        omega
      · have := grabbed other mem
        omega
    · have zero := Precedence.level_eq_zero.2 isAssignment
      have := ungrabbing other mem
      rw [same] at this
      omega
    · have nonzero := mt Precedence.level_eq_zero.1 isOther
      have := grabbed other mem
      rw [same] at this
      omega

/-- **A chain splits at one place only.** -/
theorem SplitsAt.unique (h : SplitsAt before joint after) (h' : SplitsAt before' joint' after')
    (same : before ++ joint :: after = before' ++ joint' :: after') :
    before = before' ∧ joint = joint' ∧ after = after' := by
  rw [splitsAt_iff] at h h'
  -- Of two places, the earlier one would grab the later one and must not.
  rcases List.append_eq_append_iff.1 same with ⟨between, rfl, rest⟩ | ⟨between, rfl, rest⟩
  · cases between with
    | nil =>
      cases rest
      exact ⟨(List.append_nil _).symm, rfl, rfl⟩
    | cons first between =>
      cases rest
      exact absurd (h.2 joint' (by simp)) (h'.1 joint (by simp))
  · cases between with
    | nil =>
      cases rest
      exact ⟨List.append_nil _, rfl, rfl⟩
    | cons first between =>
      cases rest
      exact absurd (h'.2 joint (by simp)) (h.1 joint' (by simp))

/-- Of two operators, the first is where the chain splits: it is looser, or both are assignments. -/
def Joint.splitsBefore (joint other : Joint) : Bool :=
  joint.power.level < other.power.level || (joint.power = .assignment && other.power = .assignment)

theorem Joint.splitsBefore_eq_grabs (joint other : Joint) :
    joint.splitsBefore other = joint.power.grabs other.power := by
  unfold splitsBefore
  generalize joint.power = p, other.power = q
  cases p <;> cases q <;> decide

/-- Splits a chain at one of its operators. -/
def split? : List Joint → Option (List Joint × Joint × List Joint)
  | [] => none
  | joint :: joints =>
    match split? joints with
    | none => some ([], joint, joints)
    | some (before, other, after) =>
      if joint.splitsBefore other then some ([], joint, joints)
      else some (joint :: before, other, after)

theorem split?_eq_none (h : split? joints = none) : joints = [] := by
  cases joints with
  | nil => rfl
  | cons joint joints =>
    simp only [split?] at h
    split at h
    · cases h
    · split at h <;> cases h

theorem eq_of_split? (h : split? joints = some (before, joint, after)) :
    joints = before ++ joint :: after := by
  induction joints generalizing before with
  | nil => cases h
  | cons first joints ih =>
    simp only [split?] at h
    split at h
    · cases h
      rfl
    · rename_i given
      split at h <;> cases h
      · rfl
      · rw [ih given, List.cons_append]

/-- The place that is found is where the chain splits. -/
theorem splitsAt_of_split? (h : split? joints = some (before, joint, after)) :
    SplitsAt before joint after := by
  induction joints generalizing before joint after with
  | nil => cases h
  | cons first joints ih =>
    simp only [split?, Joint.splitsBefore_eq_grabs] at h
    split at h
    · rename_i none
      obtain rfl := split?_eq_none none
      cases h
      exact splitsAt_iff.2 ⟨by simp, by simp⟩
    · rename_i left other right given
      obtain ⟨ungrabbing, grabbed⟩ := splitsAt_iff.1 (ih given)
      split at h <;> cases h
      · rename_i grabs
        refine splitsAt_iff.2 ⟨by simp, fun later mem => ?_⟩
        rw [eq_of_split? given, List.mem_append, List.mem_cons] at mem
        rcases mem with mem | rfl | mem
        · exact Precedence.grabs_of_not_grabs grabs (ungrabbing later mem)
        · exact grabs
        · exact Precedence.grabs_trans grabs (grabbed later mem)
      · rename_i leaves
        refine splitsAt_iff.2 ⟨?_, grabbed⟩
        rintro earlier (_ | ⟨_, mem⟩)
        · exact leaves
        · exact ungrabbing earlier mem

theorem split?_of_splitsAt (h : SplitsAt before joint after) :
    split? (before ++ joint :: after) = some (before, joint, after) := by
  cases given : split? (before ++ joint :: after) with
  | none => simpa using split?_eq_none given
  | some found =>
    obtain ⟨before', joint', after'⟩ := found
    obtain ⟨rfl, rfl, rfl⟩ := h.unique (splitsAt_of_split? given) (eq_of_split? given)
    rfl

/-! ### The tree of a chain -/

/-- The tree of a chain, which splits at one of its operators into the trees of its parts. -/
def reference (first : Operand) (joints : List Joint) : Expr Token :=
  match _given : split? joints with
  | none => first.tree
  | some (before, joint, after) =>
    .binary joint.operator (reference first before) joint.operator.kind
      (reference joint.operand after)
termination_by joints.length
decreasing_by
  all_goals
    rw [eq_of_split? _given, List.length_append, List.length_cons]
    omega

/-- An operand without operators is its own tree. -/
theorem reference_nil (first : Operand) : reference first [] = first.tree := by
  rw [reference]
  rfl

/-- **A chain has the tree of the operator that it splits at**, over the trees of its parts. -/
theorem reference_of_splitsAt (first : Operand) (h : SplitsAt before joint after) :
    reference first (before ++ joint :: after) =
      .binary joint.operator (reference first before) joint.operator.kind
        (reference joint.operand after) := by
  rw [reference]
  split
  · rename_i none
    rw [split?_of_splitsAt h] at none
    cases none
  · rename_i found
    rw [split?_of_splitsAt h] at found
    cases found
    rfl

end Expression
end Viper
