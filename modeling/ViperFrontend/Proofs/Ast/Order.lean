/-
# Trees in the order in which they were made

Of two nodes of which neither is below the other, one may be older with all that is below it
(`Ast.Before`). That stays so whatever is made behind them. A builder that makes a node over the last of
some trees in this order has the new tree behind the others (`Ast.Along.alloc`).

Key definitions: `Ast.Before`, `Ast.Along`.
Key theorems: `Ast.before_iff`, `Ast.Along.mono`, `Ast.Along.alloc`.
-/
import ViperFrontend.Proofs.Ast.Forest

namespace Viper
namespace Ast

/-- What is at and below the first node was made before all that is at and below the second. -/
def Before (ast : Ast) (a b : NodeId) : Prop :=
  ∀ x ∈ ast.descendants a, ∀ y ∈ ast.descendants b, x < y

variable {ast : Ast} {a b id : NodeId}

theorem mem_descendants {x : NodeId} : x ∈ ast.descendants id ↔ x ∈ ast.preorder id := by
  rw [descendants, ← Array.mem_toList_iff, walk_eq]
  simp

theorem mem_preorder_self : id ∈ ast.preorder id := by
  rw [preorder_eq]
  exact List.mem_cons_self

theorem le_of_mem_preorder {x : NodeId} (h : x ∈ ast.preorder id) : x ≤ id := by
  induction id using Nat.strongRecOn with
  | ind id ih =>
    rw [preorder_eq] at h
    rcases List.mem_cons.1 h with same | deeper
    · exact Nat.le_of_eq same
    · obtain ⟨child, part, mem⟩ := List.mem_flatMap.1 deeper
      have less := lt_of_mem_below part
      exact Nat.le_trans (ih child less mem) (Nat.le_of_lt less)

/-- All that is below the first node is older than the node itself. -/
theorem before_iff : ast.Before a b ↔ ∀ y ∈ ast.preorder b, a < y := by
  simp only [Before, mem_descendants]
  constructor
  · exact fun h y mem => h a mem_preorder_self y mem
  · exact fun h x below y mem => Nat.lt_of_le_of_lt (le_of_mem_preorder below) (h y mem)

theorem Before.lt (h : ast.Before a b) : a < b :=
  before_iff.1 h b mem_preorder_self

section Larger

variable {ast' : Ast} (larger : ast.faces <+: ast'.faces)
include larger

/-- Nodes that come behind others are not below them. -/
theorem preorder_mono (old : id < ast.size) : ast'.preorder id = ast.preorder id := by
  induction id using Nat.strongRecOn with
  | ind id ih =>
    obtain ⟨more, grown⟩ := larger
    have below : ast'.below id = ast.below id := by
      rw [Ast.below, Ast.below, children_eq, children_eq, ← grown,
        List.getElem?_append_left (by rwa [length_faces])]
    rw [preorder_eq, preorder_eq, below]
    congr 1
    refine List.flatMap_congr fun child part => ?_
    have less := lt_of_mem_below part
    exact ih child less (Nat.lt_trans less old)

theorem Before.mono (h : ast.Before a b) (old : b < ast.size) : ast'.Before a b := by
  rw [before_iff, preorder_mono larger old]
  exact before_iff.1 h

end Larger

/-- A new node comes behind what its parts come behind. -/
theorem before_alloc {construct : Construct} (token : Token) (less : a < ast.size)
    (parts : ∀ part ∈ construct.children, part < ast.size ∧ ast.Before a part) :
    (ast.alloc construct token).2.Before a ast.size := by
  rw [before_iff, preorder_eq]
  intro y mem
  rcases List.mem_cons.1 mem with same | deeper
  · exact same ▸ less
  · obtain ⟨child, below, mem⟩ := List.mem_flatMap.1 deeper
    have part : child ∈ construct.children := by
      have listed := List.mem_of_mem_filter below
      rwa [children_alloc, if_pos rfl] at listed
    obtain ⟨old, before⟩ := parts child part
    rw [preorder_mono (faces_extend_alloc ast construct token) old] at mem
    exact before_iff.1 before y mem

/-- The nodes are there, the tree of each behind that of the one before. -/
structure Along (ast : Ast) (ids : List NodeId) : Prop where
  pairwise : ids.Pairwise ast.Before
  lt_size : ∀ id ∈ ids, id < ast.size

namespace Along

variable {ids kept used : List NodeId} {construct : Construct}

theorem nil : ast.Along [] :=
  ⟨.nil, nofun⟩

theorem sublist {others : List NodeId} (h : ast.Along ids) (sub : others.Sublist ids) :
    ast.Along others :=
  ⟨h.pairwise.sublist sub, fun id mem => h.lt_size id (sub.subset mem)⟩

theorem mono {ast' : Ast} (larger : ast.faces <+: ast'.faces) (h : ast.Along ids) : ast'.Along ids where
  pairwise := h.pairwise.imp_of_mem fun _ hb before => before.mono larger (h.lt_size _ hb)
  lt_size id mem := by
    have size := larger.length_le
    rw [length_faces, length_faces] at size
    exact Nat.lt_of_lt_of_le (h.lt_size id mem) size

/-- A new node over the last trees comes behind the others. -/
theorem alloc (h : ast.Along (kept ++ used)) (token : Token)
    (parts : ∀ part ∈ construct.children, part ∈ used) :
    (ast.alloc construct token).2.Along (kept ++ [ast.size]) := by
  obtain ⟨-, -, across⟩ := List.pairwise_append.1 h.pairwise
  have old : ast.Along kept := h.sublist (List.sublist_append_left kept used)
  have still := old.mono (faces_extend_alloc ast construct token)
  constructor
  · rw [List.pairwise_append]
    refine ⟨still.pairwise, List.pairwise_singleton _ _, fun a mem b new => ?_⟩
    rw [List.mem_singleton.1 new]
    refine before_alloc token (old.lt_size a mem) fun part listed => ?_
    have taken := parts part listed
    exact ⟨h.lt_size part (List.mem_append_right _ taken), across a mem part taken⟩
  · rw [List.forall_mem_append, List.forall_mem_singleton]
    exact ⟨still.lt_size, by simp [size_alloc]⟩

end Along
end Ast
end Viper
