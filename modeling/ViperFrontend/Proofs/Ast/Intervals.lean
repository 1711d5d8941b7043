/-
# Trees that take up intervals

A node that is made right after the nodes below it takes up an interval of numbers with them, its own
the last one. `Ast.Tiles` says of some nodes that their trees take up the numbers from one to another
in this way, one tree behind the other and without gaps. Inside of a tree it goes on like that, so
every node of it has an interval of its own (`Ast.Tiles.exists_interval`), and what is below the nodes
is all that has a number in between (`Ast.Tiles.perm_preorder`).

The parts of a construct need not be listed in the order in which they were made, so an interval is
covered by them in some order.

Key definitions: `Ast.Tiles`.
Key theorems: `Ast.Tiles.append_iff`, `Ast.Tiles.perm_preorder`, `Ast.Tiles.exists_interval`.
-/
import ViperFrontend.Proofs.Ast.Forest

namespace Viper
namespace Ast

/-- The trees of the nodes take up the numbers from `lo` on and before `hi`. -/
inductive Tiles (ast : Ast) : Nat → List NodeId → Nat → Prop
  | nil (lo : Nat) : Tiles ast lo [] lo
  | cons {lo hi id : Nat} {ids parts : List NodeId} {face : Construct × Token} :
      Tiles ast lo parts id → ast.faces[id]? = some face → face.1.children.Perm parts →
      Tiles ast (id + 1) ids hi → Tiles ast lo (id :: ids) hi

namespace Tiles

variable {ast : Ast} {lo hi : Nat} {ids : List NodeId}

theorem le (h : ast.Tiles lo ids hi) : lo ≤ hi := by
  induction h with
  | nil => exact Nat.le_refl _
  | cons _ _ _ _ below after => omega

/-- Nodes that come behind others do not change the intervals of these. -/
theorem mono {ast' : Ast} (larger : ast.faces <+: ast'.faces) (h : ast.Tiles lo ids hi) :
    ast'.Tiles lo ids hi := by
  induction h with
  | nil lo => exact .nil lo
  | cons _ found parts _ below after =>
    exact .cons below (getElem?_faces_mono larger found) parts after

theorem append_iff {others : List NodeId} :
    ast.Tiles lo (ids ++ others) hi ↔ ∃ mid, ast.Tiles lo ids mid ∧ ast.Tiles mid others hi := by
  induction ids generalizing lo with
  | nil =>
    constructor
    · exact fun h => ⟨lo, .nil lo, h⟩
    · rintro ⟨mid, first, second⟩
      cases first
      exact second
  | cons id ids ih =>
    constructor
    · intro h
      cases h with
      | cons below found parts after =>
        obtain ⟨mid, first, second⟩ := ih.1 after
        exact ⟨mid, .cons below found parts first, second⟩
    · rintro ⟨mid, first, second⟩
      cases first with
      | cons below found parts after => exact .cons below found parts (ih.2 ⟨mid, after, second⟩)

/-- **A new node over the last trees** makes one tree of them, with itself the last. -/
theorem alloc {used : List NodeId} {construct : Construct} (token : Token)
    (h : ast.Tiles lo (ids ++ used) ast.size) (parts : construct.children.Perm used) :
    (ast.alloc construct token).2.Tiles lo (ids ++ [ast.size]) (ast.size + 1) := by
  obtain ⟨mid, before, below⟩ := append_iff.1 h
  have larger := faces_extend_alloc ast construct token
  refine append_iff.2 ⟨mid, before.mono larger, ?_⟩
  exact .cons (below.mono larger) (getElem?_faces_alloc ast construct token) parts (.nil _)

/-- Every number in between is that of a node with an interval of its own. -/
theorem exists_interval (h : ast.Tiles lo ids hi) {id : Nat} (from_lo : lo ≤ id) (to_hi : id < hi) :
    ∃ first, first ≤ id ∧ ast.Tiles first [id] (id + 1) := by
  induction h with
  | nil lo => omega
  | @cons lo hi last ids parts face below found perm _ inside behind =>
    rcases Nat.lt_trichotomy id last with less | rfl | greater
    · exact inside from_lo less
    · exact ⟨lo, below.le, .cons below found perm (.nil _)⟩
    · exact behind greater to_hi

/-- **What is below the nodes** is all that has a number in between, each once. -/
theorem perm_preorder (forest : ast.Forest) (h : ast.Tiles lo ids hi) :
    (ids.flatMap ast.preorder).Perm (List.range' lo (hi - lo)) := by
  induction h with
  | nil lo => simp
  | @cons lo hi id ids parts face below found perm after inside behind =>
    have children : (ast.below id).Perm parts := by
      rw [forest.below_eq, children_eq, found]
      exact perm
    have tree : (ast.preorder id).Perm (List.range' lo (id + 1 - lo)) := by
      have length : id + 1 - lo = (id - lo) + 1 := by
        have := below.le
        omega
      have last : lo + (id - lo) = id := Nat.add_sub_of_le below.le
      rw [preorder_eq, length, List.range'_1_concat, last]
      refine (((children.flatMap_right _).trans inside).cons id).trans ?_
      exact (List.perm_append_singleton id _).symm
    have whole : List.range' lo (id + 1 - lo) ++ List.range' (id + 1) (hi - (id + 1)) =
        List.range' lo (hi - lo) := by
      have first := below.le
      have second := after.le
      have start : lo + (id + 1 - lo) = id + 1 := by omega
      have length : id + 1 - lo + (hi - (id + 1)) = hi - lo := by omega
      rw [← length, ← List.range'_append_1, start]
    rw [List.flatMap_cons, ← whole]
    exact tree.append behind

end Tiles

/-- The interval of one node is that of its descendants. -/
theorem Tiles.perm_descendants {ast : Ast} {first id : Nat} (forest : ast.Forest)
    (h : ast.Tiles first [id] (id + 1)) :
    (ast.descendants id).toList.Perm (List.range' first (id + 1 - first)) := by
  rw [descendants, walk_eq]
  exact h.perm_preorder forest

end Ast
end Viper
