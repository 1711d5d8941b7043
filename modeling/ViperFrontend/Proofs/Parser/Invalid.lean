/-
# Invalid nodes

Where an attempt to parse fails, a parse records the error and goes on with an invalid node. So every
invalid node has an error of its own: the one that was recorded just before the node was made
(`Parser.State.PaidBy`). An error that is recorded without a node, like that of a missing semicolon, and
the faults of texts in between do not matter for this: they are entries that no node stands for.

The error may have been made long before it is recorded, many tokens back. It then has the line of a
token that is not behind the one at which the node stands, for tokens are only ever passed
(`Parser.State.Reaches.line_le`).

Key definitions: `Parser.State.stream`, `Parser.State.PaidBy`.
Key theorems: `Parser.State.Course.exists_paidBy`, `Parser.State.PaidBy.count_le`,
`Source.invalid_paid`.
-/
import ViperFrontend.Proofs.Parser.Levels
import ViperFrontend.Proofs.Parser.Construction
import ViperFrontend.Proofs.Parser.Reading
import ViperFrontend.Proofs.Token.Factoring
import Mathlib.Data.List.Perm.Subperm

namespace Viper

namespace Ast

/-- A construct that stands for nothing. -/
def isInvalid (face : Construct × Token) : Bool :=
  face.1 = .invalid

/-- The invalid nodes, by number and oldest first. -/
def invalids (ast : Ast) : List NodeId :=
  ast.faces.findIdxs isInvalid

variable {ast : Ast} {id : NodeId}

theorem mem_invalids : id ∈ ast.invalids ↔ ∃ token, ast.faces[id]? = some (.invalid, token) := by
  unfold invalids isInvalid
  rw [List.mem_findIdxs_iff_exists_getElem_pos]
  constructor
  · rintro ⟨bound, invalid⟩
    refine ⟨ast.faces[id].2, ?_⟩
    rw [List.getElem?_eq_getElem bound, ← of_decide_eq_true invalid]
  · rintro ⟨token, found⟩
    obtain ⟨bound, here⟩ := List.getElem?_eq_some_iff.1 found
    exact ⟨bound, by simp [here]⟩

theorem lt_size_of_mem_invalids (mem : id ∈ ast.invalids) : id < ast.size := by
  obtain ⟨token, found⟩ := mem_invalids.1 mem
  rw [← length_faces]
  exact (List.getElem?_eq_some_iff.1 found).1

theorem mem_invalids_alloc {construct : Construct} {token : Token} :
    id ∈ (ast.alloc construct token).2.invalids ↔
      id ∈ ast.invalids ∨ id = ast.size ∧ construct = .invalid := by
  simp only [mem_invalids, getElem?_faces_alloc_iff, Prod.mk.injEq]
  constructor
  · rintro ⟨token', before | ⟨new, invalid, -⟩⟩
    · exact .inl ⟨token', before⟩
    · exact .inr ⟨new, invalid.symm⟩
  · rintro (⟨token', before⟩ | ⟨new, invalid⟩)
    · exact ⟨token', .inl before⟩
    · exact ⟨token, .inr ⟨new, invalid.symm, rfl⟩⟩

theorem length_invalids (ast : Ast) :
    ast.invalids.length = (ast.nodes.filter (·.construct = .invalid)).size := by
  rw [invalids, List.length_findIdxs, faces, List.countP_map, ← Array.countP_eq_size_filter,
    ← Array.countP_toList]
  rfl

/-- A walk that visits no node twice meets each invalid node once at most. -/
theorem countInvalid_le (once : ast.reachable.toList.Nodup) :
    ast.countInvalid ≤ ast.invalids.length := by
  have visits : ast.countInvalid = (ast.reachable.toList.filter fun id =>
      ast.nodes[id]?.map (·.construct) = some .invalid).length := by
    rw [countInvalid, ← Array.toList_filter, Array.length_toList]
  rw [visits]
  refine (List.subperm_of_subset (once.filter _) fun id mem => ?_).length_le
  have invalid := of_decide_eq_true (List.mem_filter.1 mem).2
  obtain ⟨node, here, construct⟩ := Option.map_eq_some_iff.1 invalid
  rw [mem_invalids, getElem?_faces, here]
  exact ⟨node.token, by simp [construct]⟩

end Ast

namespace Parser.State

variable {origin s t : State}

/-! ### Lines on the way -/

/-- The tokens ahead, with the end of the file. -/
def stream (s : State) : List Token :=
  s.tokens ++ [s.endToken]

theorem exists_stream_eq_cons (s : State) : ∃ behind, s.stream = s.current :: behind := by
  unfold stream tokens current
  cases s.ahead with
  | nil => exact ⟨[], rfl⟩
  | cons first rest => exact ⟨_, rfl⟩

theorem Reaches.stream_suffix (h : s.Reaches t) : t.stream <:+ s.stream := by
  obtain ⟨passed, split⟩ := h.ahead_suffix
  refine ⟨passed.map (·.token), ?_⟩
  rw [stream, stream, tokens, tokens, endToken, endToken, h.endLine_eq, ← split]
  simp

/-- In a stream whose lines do not decrease, the current token is on later and later lines. -/
theorem Reaches.line_le (h : s.Reaches t)
    (sorted : s.stream.Pairwise fun a b => a.line ≤ b.line) : s.current.line ≤ t.current.line := by
  obtain ⟨behind, stream⟩ := s.exists_stream_eq_cons
  obtain ⟨behind', stream'⟩ := t.exists_stream_eq_cons
  have later : t.current ∈ s.stream := h.stream_suffix.subset (stream' ▸ List.mem_cons_self)
  rw [stream] at later sorted
  rcases List.mem_cons.1 later with same | mem
  · rw [same]
    exact UInt32.le_refl _
  · exact List.rel_of_pairwise_cons sorted mem

/-! ### Errors for invalid nodes -/

/-- An entry keeps its place. -/
theorem Reaches.getElem?_errors (h : s.Reaches t) {i : Nat} {d : Diagnostic}
    (here : s.errors.toList[i]? = some d) : t.errors.toList[i]? = some d := by
  obtain ⟨more, grown⟩ := h.errors_extend
  rw [← grown]
  exact List.getElem?_append_left (List.getElem?_eq_some_iff.1 here).1 ▸ here

/-- Each invalid node of `t` has an error of the syntax for its own, the later a later one. The error
was made at a token on the way from `origin`, and the node is at that token or a later one. -/
structure PaidBy (origin t : State) (errorOf : NodeId → Nat) : Prop where
  pays : ∀ id token, t.ast.faces[id]? = some (.invalid, token) →
    ∃ d, t.errors.toList[errorOf id]? = some d ∧ d.fault.isLexical = false ∧
      ∃ u v, origin.Reaches u ∧ u.Reaches v ∧ d.line = u.current.line ∧ token = v.current
  increasing : ∀ id ∈ t.ast.invalids, ∀ id' ∈ t.ast.invalids, id < id' → errorOf id < errorOf id'

/-- As long as no invalid node is made, a step makes no difference. -/
theorem PaidBy.of_reaches {errorOf : NodeId → Nat} (h : origin.PaidBy s errorOf)
    (reached : s.Reaches t)
    (invalids : ∀ (id : NodeId) token, t.ast.faces[id]? = some (Construct.invalid, token) →
      s.ast.faces[id]? = some (Construct.invalid, token)) : origin.PaidBy t errorOf where
  pays id token found := by
    obtain ⟨d, entry, kind, made⟩ := h.pays id token (invalids id token found)
    exact ⟨d, reached.getElem?_errors entry, kind, made⟩
  increasing id mem id' mem' := by
    obtain ⟨token, found⟩ := Ast.mem_invalids.1 mem
    obtain ⟨token', found'⟩ := Ast.mem_invalids.1 mem'
    exact h.increasing id (Ast.mem_invalids.2 ⟨token, invalids id token found⟩)
      id' (Ast.mem_invalids.2 ⟨token', invalids id' token' found'⟩)

/-- **Recovery pays** for its node with the error that it records. -/
theorem PaidBy.recover {errorOf : NodeId → Nat} {e : SyntaxError} (h : origin.PaidBy t errorOf)
    {u : State} (first : origin.Reaches u) (raises : u.Raises e t) :
    origin.PaidBy ((t.record e).alloc .invalid t.current).2
      (Function.update errorOf t.ast.size t.errors.size) := by
  have reached : t.Reaches (t.record e) := Reaches.refl.record e
  have old : ∀ id ∈ t.ast.invalids, id < t.ast.size ∧ errorOf id < t.errors.size := by
    intro id mem
    obtain ⟨token, found⟩ := Ast.mem_invalids.1 mem
    obtain ⟨d, entry, -⟩ := h.pays id token found
    exact ⟨Ast.lt_size_of_mem_invalids mem, (List.getElem?_eq_some_iff.1 entry).1⟩
  have same : ∀ id ∈ t.ast.invalids,
      Function.update errorOf t.ast.size t.errors.size id = errorOf id := fun id mem =>
    Function.update_of_ne (Nat.ne_of_lt (old id mem).1) _ _
  constructor
  · intro id token found
    rcases Ast.getElem?_faces_alloc_iff.1 found with before | ⟨isNew, new⟩
    · rw [same id (Ast.mem_invalids.2 ⟨token, before⟩)]
      obtain ⟨d, entry, kind, made⟩ := h.pays id token before
      exact ⟨d, reached.getElem?_errors entry, kind, made⟩
    · obtain rfl : id = t.ast.size := isNew
      obtain rfl : token = t.current := congrArg Prod.snd new
      rw [Function.update_self]
      refine ⟨⟨.syntactic e.fault, e.line, t.file⟩, ?_, rfl, u, t, first, raises.reaches,
        raises.here.isAt.line_eq, rfl⟩
      simp [State.alloc, record]
  · intro id mem id' mem' less
    rcases Ast.mem_invalids_alloc.1 mem with before | ⟨isNew, -⟩
    · rw [same id before]
      rcases Ast.mem_invalids_alloc.1 mem' with before' | ⟨isNew', -⟩
      · rw [same id' before']
        exact h.increasing id before id' before' less
      · obtain rfl : id' = t.ast.size := isNew'
        rw [Function.update_self]
        exact (old id before).2
    · -- nothing is behind the new node
      have bound := Ast.lt_size_of_mem_invalids mem'
      rw [show ((t.record e).alloc .invalid t.current).2.ast.size = t.ast.size + 1 from
        Ast.size_alloc ..] at bound
      obtain rfl : id = t.ast.size := isNew
      exact absurd bound (Nat.not_lt_of_le less)

/-- **On the course of a parse every invalid node is paid for.** -/
theorem Course.exists_paidBy {hand : List (NodeId × Nat)} (h : origin.Course t hand)
    (empty : origin.ast = Ast.empty) : ∃ errorOf, origin.PaidBy t errorOf := by
  induction h with
  | start => exact ⟨fun _ => 0, by simp [empty, Ast.empty, Ast.faces],
      by simp [empty, Ast.empty, Ast.invalids, Ast.faces]⟩
  | @advance t _ _ ih =>
    obtain ⟨errorOf, paid⟩ := ih
    refine ⟨errorOf, paid.of_reaches Reaches.refl.advance fun id token found => ?_⟩
    rwa [ast_advance] at found
  | @record t _ e n _ _ ih =>
    obtain ⟨errorOf, paid⟩ := ih
    have passed := reaches_iterate_advance n t
    refine ⟨errorOf, paid.of_reaches (passed.record e) fun id token found => ?_⟩
    simpa using found
  | alloc token _ made _ _ ih =>
    obtain ⟨errorOf, paid⟩ := ih
    refine ⟨errorOf, paid.of_reaches (Reaches.refl.alloc _ token) fun id token' found => ?_⟩
    rcases Ast.getElem?_faces_alloc_iff.1 found with before | ⟨-, new⟩
    · exact before
    · exact absurd (congrArg Prod.fst new).symm made.ne_invalid
  | recover _ before raises ih =>
    obtain ⟨errorOf, paid⟩ := ih
    exact ⟨_, paid.recover before.reaches raises⟩
  | widen _ _ ih => exact ih
  | pushRoot _ ih =>
    obtain ⟨errorOf, paid⟩ := ih
    exact ⟨errorOf, paid.of_reaches (Reaches.refl.pushRoot _) fun _ _ found => found⟩

/-- Nodes that have errors of their own are not more than the errors. -/
theorem PaidBy.count_le {errorOf : NodeId → Nat} (h : origin.PaidBy t errorOf) :
    t.ast.invalids.length ≤ (t.errors.filter (! ·.fault.isLexical)).size := by
  have size : (t.errors.filter (! ·.fault.isLexical)).size =
      (t.errors.toList.findIdxs (! ·.fault.isLexical)).length := by
    rw [List.length_findIdxs, ← Array.countP_eq_size_filter, Array.countP_toList]
  have distinct : (t.ast.invalids.map errorOf).Nodup := by
    refine List.pairwise_map.2 ((List.pairwise_findIdxs).imp_of_mem ?_)
    exact fun mem mem' less => Nat.ne_of_lt (h.increasing _ mem _ mem' less)
  rw [size, ← List.length_map errorOf]
  refine (List.subperm_of_subset distinct fun i mem => ?_).length_le
  obtain ⟨id, invalid, rfl⟩ := List.mem_map.1 mem
  obtain ⟨token, found⟩ := Ast.mem_invalids.1 invalid
  obtain ⟨d, entry, kind, -⟩ := h.pays id token found
  obtain ⟨bound, here⟩ := List.getElem?_eq_some_iff.1 entry
  rw [List.mem_findIdxs_iff_exists_getElem_pos]
  exact ⟨bound, by simp [here, kind]⟩

end Parser.State

namespace Source

open Viper.Parser

/-- A parse visits no node twice. -/
theorem nodup_reachable (limit : Nat) (source : Source) :
    (source.parseWith limit).ast.reachable.toList.Nodup := by
  have opened : (State.Open _ _ _) := rootsOpen_parse limit source
  have increasing := opened.increasing
  rw [Role.map_each] at increasing
  rw [Ast.reachable, Ast.walk_eq]
  refine opened.forest.nodup_preorder (increasing.imp Nat.ne_of_lt) fun root mem => ?_
  exact opened.orphan (root, _) (List.mem_map_of_mem mem)

/-- The lines of the tokens ahead are in order at the start. -/
theorem pairwise_line_stream (limit : Nat) (source : Source)
    (few : source.content.toList.count '\n' < UInt32.size - 1) :
    (State.start limit source).stream.Pairwise fun a b => a.line ≤ b.line :=
  source.pairwise_line_le few

/-- **Every invalid node is paid for by an error of its own.** In the tree of a source with fewer line
feeds than lines can be counted, the invalid nodes are not more than the errors of the syntax, let alone
those below the roots. Each has an error of the syntax on its own line or before it, later nodes later
errors. -/
theorem invalid_paid (source : Source)
    (few : source.content.toList.count '\n' < UInt32.size - 1) :
    let parsed := source.parse
    let invalid := parsed.ast.nodes.filter (·.construct = .invalid)
    let syntactic := parsed.errors.filter (! ·.fault.isLexical)
    parsed.ast.countInvalid ≤ invalid.size ∧ invalid.size ≤ syntactic.size ∧
      ∃ errorOf : NodeId → Nat,
        (∀ id node, parsed.ast.nodes[id]? = some node → node.construct = .invalid →
          ∃ d, parsed.errors[errorOf id]? = some d ∧ d.fault.isLexical = false ∧
            d.line ≤ node.token.line) ∧
        ∀ id node id' node', parsed.ast.nodes[id]? = some node → node.construct = .invalid →
          parsed.ast.nodes[id']? = some node' → node'.construct = .invalid →
          id < id' → errorOf id < errorOf id' := by
  intro parsed invalid syntactic
  obtain ⟨last, ends, -, course⟩ := source.course_parseWith maxNesting
  have tree : parsed.ast = last.ast := congrArg Parsed.ast ends
  have entries : parsed.errors = last.errors := congrArg Parsed.errors ends
  obtain ⟨errorOf, paid⟩ := course.exists_paidBy rfl
  have sorted := pairwise_line_stream maxNesting source few
  have face : ∀ {id : NodeId} {node : Node}, parsed.ast.nodes[id]? = some node →
      node.construct = .invalid → last.ast.faces[id]? = some (.invalid, node.token) := by
    intro id node here construct
    rw [← tree, Ast.getElem?_faces, here, ← construct]
    rfl
  have once : parsed.ast.reachable.toList.Nodup := nodup_reachable maxNesting source
  refine ⟨?_, ?_, errorOf, ?_, ?_⟩
  · rw [← Ast.length_invalids]
    exact Ast.countInvalid_le once
  · rw [← Ast.length_invalids, tree]
    show _ ≤ (parsed.errors.filter _).size
    rw [entries]
    exact paid.count_le
  · intro id node here construct
    obtain ⟨d, entry, kind, u, v, first, onward, line, token⟩ := paid.pays id _ (face here construct)
    refine ⟨d, ?_, kind, ?_⟩
    · rwa [entries, ← Array.getElem?_toList]
    · rw [line, token]
      exact onward.line_le (sorted.sublist first.stream_suffix.sublist)
  · intro id node id' node' here construct here' construct' less
    exact paid.increasing id (Ast.mem_invalids.2 ⟨_, face here construct⟩)
      id' (Ast.mem_invalids.2 ⟨_, face here' construct'⟩) less

/-- An `else` without an `if`: of five invalid nodes two are thrown away with its block, and the one
that stands for it is on the line behind that of its error. -/
theorem invalid_paid_dangling :
    let source : Source :=
      ⟨"f.viper", "proc f(): void \x7b\n  x = ;\n  else \x7b @; \x7d\n  x = ;\n\x7d"⟩
    let parsed := source.parse
    let invalid := parsed.ast.nodes.filter (·.construct = .invalid)
    let syntactic := parsed.errors.filter (! ·.fault.isLexical)
    (source.content.toList.count '\n' < UInt32.size - 1 ∧ parsed.ast.countInvalid = 3 ∧
        invalid.map (·.token.line) = #[2, 3, 3, 4, 4] ∧
        syntactic.map (·.line) = #[2, 3, 3, 3, 3, 4]) ∧
      ∃ errorOf : NodeId → Nat,
        (∀ id node, parsed.ast.nodes[id]? = some node → node.construct = .invalid →
          ∃ d, parsed.errors[errorOf id]? = some d ∧ d.fault.isLexical = false ∧
            d.line ≤ node.token.line) ∧
        ∀ id node id' node', parsed.ast.nodes[id]? = some node → node.construct = .invalid →
          parsed.ast.nodes[id']? = some node' → node'.construct = .invalid →
          id < id' → errorOf id < errorOf id' := by
  intro source parsed invalid syntactic
  have few : source.content.toList.count '\n' < UInt32.size - 1 := by decide +kernel
  have visited : parsed.ast.countInvalid = 3 := by decide +kernel
  have nodes : invalid.map (·.token.line) = #[2, 3, 3, 4, 4] := by decide +kernel
  have errors : syntactic.map (·.line) = #[2, 3, 3, 3, 3, 4] := by decide +kernel
  exact ⟨⟨few, visited, nodes, errors⟩, (invalid_paid source few).2.2⟩

end Source
end Viper
