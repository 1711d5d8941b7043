/-
# Trees that grow node by node

A builder makes nodes over nodes that are there and lists nodes as roots, in any order and as often as
it likes: a node may be a part of several others, or twice of one, and be a root as well. `Ast.Grown`
are the trees that come of this, so each stage on the way to one of them is one of them. They need not
be forests; a parse takes care not to use a node twice, and gets more out of it.

What holds without that care is that the newest adopter wins: the parent of a node is the newest of all
the nodes that have it as a part (`Ast.Grown.parent_latest`). A part is older than what it is a part of,
so parent links lead to newer and newer nodes and come to an end.

Key definitions: `Ast.Grown`, `Ast.adopters`, `Ast.climb`.
Key theorems: `Ast.Grown.child_lt`, `Ast.Grown.newest`, `Ast.Grown.parent_latest`.
-/
import Mathlib.Order.Bounds.Basic
import ViperFrontend.Proofs.Ast.Forest

namespace Viper
namespace Ast

/-- The trees that are built from nothing: by nodes over nodes that are there, and by roots. -/
inductive Grown : Ast → Prop
  | empty : Grown empty
  | alloc {ast : Ast} (construct : Construct) (token : Token) : Grown ast →
      (∀ child ∈ construct.children, child < ast.size) → Grown (ast.alloc construct token).2
  | pushRoot {ast : Ast} (id : NodeId) : Grown ast → Grown (ast.pushRoot id)

/-- The nodes that have this one as a part. -/
def adopters (ast : Ast) (id : NodeId) : Set NodeId :=
  {above | id ∈ ast.children above}

/-- The node that so many parent links lead to, if there are so many. -/
def climb (ast : Ast) : Nat → NodeId → Option NodeId
  | 0, id => some id
  | links + 1, id => (ast.parent id).bind (ast.climb links)

variable {ast : Ast} {id above : NodeId}

/-- Only nodes that are there have parts. -/
theorem lt_size_of_mem_adopters (h : above ∈ ast.adopters id) : above < ast.size := by
  by_contra late
  have absent : ast.faces[above]? = none :=
    List.getElem?_eq_none (by rw [length_faces]; exact Nat.le_of_not_lt late)
  simp [adopters, children_eq, absent] at h

/-- A new node adopts its parts. -/
theorem mem_adopters_alloc (construct : Construct) (token : Token) :
    above ∈ (ast.alloc construct token).2.adopters id ↔
      above = ast.size ∧ id ∈ construct.children ∨ above ∈ ast.adopters id := by
  have parts : above ∈ (ast.alloc construct token).2.adopters id ↔
      id ∈ if above = ast.size then construct.children else ast.children above := by
    rw [← children_alloc]
    rfl
  rw [parts]
  split
  · rename_i new
    have none : ast.size ∉ ast.adopters id := fun part =>
      Nat.lt_irrefl _ (lt_size_of_mem_adopters part)
    simp [new, none]
  · rename_i old
    simp [old, adopters]

namespace Grown

/-- Parts are older than the node they belong to. -/
theorem child_lt (h : ast.Grown) (id : NodeId) : ∀ child ∈ ast.children id, child < id := by
  induction h with
  | empty => simp [children, Ast.empty]
  | @alloc ast construct token _ old ih =>
    intro child part
    rw [children_alloc] at part
    split at part
    · rename_i new
      rw [new]
      exact old child part
    · exact ih child part
  | pushRoot _ _ ih => exact ih

/-- What the parent link of a node says: who adopted it last, or that nobody did. -/
theorem newest (h : ast.Grown) (id : NodeId) :
    match ast.parent id with
    | some above => IsGreatest (ast.adopters id) above
    | none => ast.adopters id = ∅ := by
  induction h with
  | empty => simp [parent, adopters, children, Ast.empty]
  | @alloc ast construct token _ old ih =>
    by_cases part : id ∈ construct.children
    · -- The new node has the largest number of all.
      rw [parent_alloc, if_pos ⟨part, Nat.le_of_lt (old id part)⟩]
      refine ⟨(mem_adopters_alloc construct token).2 (.inl ⟨rfl, part⟩), fun above mem => ?_⟩
      rcases (mem_adopters_alloc construct token).1 mem with ⟨new, -⟩ | before
      · exact Nat.le_of_eq new
      · exact Nat.le_of_lt (lt_size_of_mem_adopters before)
    · have same : (ast.alloc construct token).2.adopters id = ast.adopters id := by
        ext above
        simp [mem_adopters_alloc, part]
      rw [parent_alloc, if_neg fun both => part both.1, same]
      exact ih
  | pushRoot _ _ ih => exact ih

theorem parent_eq_some_iff (h : ast.Grown) :
    ast.parent id = some above ↔ IsGreatest (ast.adopters id) above := by
  have link := h.newest id
  split at link
  · rename_i last found
    rw [found, Option.some_inj]
    exact ⟨fun same => same ▸ link, fun greatest => link.unique greatest⟩
  · rename_i none
    rw [none, link]
    exact iff_of_false nofun fun greatest => greatest.1

theorem parent_eq_none_iff (h : ast.Grown) : ast.parent id = none ↔ ast.adopters id = ∅ := by
  have link := h.newest id
  split at link
  · rename_i last found
    simp [found, link.nonempty.ne_empty]
  · rename_i none
    simp [none, link]

theorem lt_of_parent (h : ast.Grown) (link : ast.parent id = some above) : id < above :=
  h.child_lt above id (h.parent_eq_some_iff.1 link).1

/-- From a node there are at most as many parent links as there are newer nodes. -/
theorem exists_climb_eq_none (h : ast.Grown) (here : id < ast.size) :
    ∃ links ≤ ast.size - id, ast.climb links id = none := by
  induction later : ast.size - id using Nat.strongRecOn generalizing id with
  | ind newer ih =>
    cases link : ast.parent id with
    | none => exact ⟨1, later ▸ Nat.sub_pos_of_lt here, by simp [climb, link]⟩
    | some above =>
      have less := h.lt_of_parent link
      have there := lt_size_of_mem_adopters (h.parent_eq_some_iff.1 link).1
      have fewer : ast.size - above < newer := later ▸ Nat.sub_lt_sub_left here less
      obtain ⟨links, bound, ends⟩ := ih (ast.size - above) fewer there rfl
      exact ⟨links + 1, Nat.lt_of_le_of_lt bound fewer, by simpa [climb, link] using ends⟩

end Grown

/-- **What a new node leaves alone**: the constructs and tokens of all nodes that are there, and the parents
of those that are not its parts. -/
theorem getElem?_nodes_alloc (construct : Construct) (token : Token) {node : Node}
    (found : ast.nodes[id]? = some node) :
    ∃ node', (ast.alloc construct token).2.nodes[id]? = some node' ∧
      node'.construct = node.construct ∧ node'.token = node.token ∧
      (id ∉ construct.children → node'.parent = node.parent) := by
  have here : id < ast.nodes.size := (Array.getElem?_eq_some_iff.1 found).1
  rw [alloc, getElem?_adopt, Array.getElem?_push, if_neg (Nat.ne_of_lt here), found]
  refine ⟨_, rfl, ?_⟩
  split
  · rename_i part
    exact ⟨rfl, rfl, fun other => (other part).elim⟩
  · exact ⟨rfl, rfl, fun _ => rfl⟩

/-- **The newest adopter is the parent**, at every stage of building a tree: the parent of a node is the node
with the largest number of those that have it as a part, and there is none if there are no such nodes. So
parent links lead to newer nodes and come to an end, and a new node changes the parents of its parts and
nothing else about the nodes that are there. -/
theorem Grown.parent_latest (h : ast.Grown) :
    (∀ id above, ast.parent id = some above ↔ IsGreatest {other | id ∈ ast.children other} above) ∧
    (∀ id, ast.parent id = none ↔ ∀ other, id ∉ ast.children other) ∧
    (∀ id above, ast.parent id = some above → id < above) ∧
    (∀ id < ast.size, ∃ links ≤ ast.size - id, ast.climb links id = none) ∧
    ∀ construct token id node, ast.nodes[id]? = some node →
      ∃ node', (ast.alloc construct token).2.nodes[id]? = some node' ∧
        node'.construct = node.construct ∧ node'.token = node.token ∧
        (id ∉ construct.children → node'.parent = node.parent) := by
  refine ⟨fun id above => h.parent_eq_some_iff, fun id => ?_, fun id above => h.lt_of_parent,
    fun id => h.exists_climb_eq_none, fun construct token id node => getElem?_nodes_alloc construct token⟩
  rw [h.parent_eq_none_iff, Set.eq_empty_iff_forall_notMem]
  rfl

/-- A leaf that is twice a part of one block and once of a later one, and a root in between: the later
block is its parent. The two blocks have none. -/
theorem parent_latest_shared :
    let leaf := (empty.alloc (.integer 7) ⟨.integer, "7", 1⟩).2
    let pair := (leaf.alloc (.block [0, 0]) ⟨.openCurly, "\x7b", 1⟩).2
    let ast := ((pair.pushRoot 0).alloc (.block [0]) ⟨.openCurly, "\x7b", 2⟩).2
    ast.Grown ∧ ast.parent 0 = some 2 ∧ IsGreatest {other | 0 ∈ ast.children other} 2 ∧
      ast.parent 1 = none ∧ ∀ other, 1 ∉ ast.children other := by
  intro leaf pair ast
  have grownPair : pair.Grown := .alloc _ _ (.alloc _ _ .empty (by decide)) (by decide)
  have grown : ast.Grown := .alloc _ _ (.pushRoot 0 grownPair) (by decide)
  have latest := grown.parent_latest
  have adopted : ast.parent 0 = some 2 := by decide
  have free : ast.parent 1 = none := by decide
  exact ⟨grown, adopted, (latest.1 0 2).1 adopted, free, (latest.2.1 1).1 free⟩

end Ast
end Viper
