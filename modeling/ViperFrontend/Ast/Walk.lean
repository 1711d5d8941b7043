/-
# Walks over a syntax tree

The nodes below a node are visited parents first and children in order, with a stack of the
nodes still to visit. A child has a smaller number than its parent, so the walk ends: each
node costs as many visits as the tree below it has places (`Ast.places`).

Key definitions: `Ast.descendants`, `Ast.reachable`, `Ast.countInvalid`.
-/
import ViperFrontend.Ast.Basic

namespace Viper
namespace Ast

/-- The children of a node with smaller numbers than its own. In a tree that is built node
by node these are all of them. -/
def below (ast : Ast) (id : NodeId) : List NodeId :=
  (ast.children id).filter (· < id)

theorem lt_of_mem_below {ast : Ast} {id child : NodeId} (h : child ∈ ast.below id) :
    child < id := by
  simpa using (List.mem_filter.1 h).2

/-- The sum of some counts. -/
def total (counts : List Nat) : Nat :=
  counts.foldr (· + ·) 0

theorem total_append (xs ys : List Nat) : total (xs ++ ys) = total xs + total ys := by
  induction xs with
  | nil => exact (Nat.zero_add _).symm
  | cons x xs ih =>
    show x + total (xs ++ ys) = x + total xs + total ys
    rw [ih, Nat.add_assoc]

/-- The number of places in the tree below and at a node. -/
def places (ast : Ast) (id : NodeId) : Nat :=
  1 + total ((ast.below id).attach.map fun child => ast.places child.1)
termination_by id
decreasing_by exact lt_of_mem_below child.2

theorem places_eq (ast : Ast) (id : NodeId) :
    ast.places id = 1 + total ((ast.below id).map ast.places) := by
  rw [places, List.attach_map_val]

/-- Visits the nodes of the stack and all below them, behind those already visited. -/
def walk (ast : Ast) (visited : Array NodeId) : List NodeId → Array NodeId
  | [] => visited
  | id :: stack => ast.walk (visited.push id) (ast.below id ++ stack)
termination_by stack => total (stack.map ast.places)
decreasing_by
  show _ < ast.places id + total (stack.map ast.places)
  rw [List.map_append, total_append, places_eq ast id]
  omega

/-- A node and everything below it, parents first. -/
def descendants (ast : Ast) (id : NodeId) : Array NodeId :=
  ast.walk #[] [id]

/-- Everything below the roots. -/
def reachable (ast : Ast) : Array NodeId :=
  ast.walk #[] ast.roots.toList

/-- The number of visits to places where parsing failed. -/
def countInvalid (ast : Ast) : Nat :=
  (ast.reachable.filter fun id => ast.nodes[id]?.map (·.construct) = some .invalid).size

end Ast
end Viper
