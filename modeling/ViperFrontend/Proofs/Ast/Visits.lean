/-
# One order of visits

What is below a node is visited in three ways: by the loop that keeps the nodes still to visit on a stack,
by the printer that goes from a node into each of its parts, and, on paper, by the rule that a node comes
before all that is below its parts, part after part. The three agree on every tree that is built node by
node, also where a node is a part of several others and is visited once for each
(`Ast.Grown.visits_agree`).

The loop has the stack as an array with its top at the end (`Ast.Walking.turn`), so the parts of a node go
on it in reverse. It comes to its end because a part is older than its node: that is why `Ast.walk`, which
goes to older parts only, takes the same turns (`Ast.Walking.leads_walk`). The printer visits each node
with its level (`Ast.visits`), and writes one line a visit.

Key definitions: `Ast.Walking.turn`, `Ast.Walking.Ends`, `Ast.visits`.
Key theorems: `Ast.Walking.leads_walk`, `Ast.outlineFrom_eq_join`, `Ast.Grown.visits_agree`.
-/
import Mathlib.Logic.Relation
import ViperFrontend.Ast.Outline
import ViperFrontend.Proofs.Ast.Growth
import ViperFrontend.Proofs.Ast.Order

namespace Viper
namespace Ast

variable {ast : Ast}

/-! ### The loop -/

/-- A walk under way: the nodes visited, and those still to visit, the next one last. -/
structure Walking where
  visited : Array NodeId
  stack : Array NodeId

namespace Walking

/-- One turn of the loop: the node on top of the stack is visited and gives way to its parts, the first of
them on top. Without a node on the stack the walk is over. -/
def turn (ast : Ast) (w : Walking) : Option Walking :=
  w.stack.back?.map fun id => ⟨w.visited.push id, w.stack.pop ++ (ast.children id).reverse⟩

/-- The loop gets from one point to the other. -/
def Leads (ast : Ast) : Walking → Walking → Prop :=
  Relation.ReflTransGen fun w w' => w.turn ast = some w'

/-- The loop comes to its end, with these nodes visited. -/
def Ends (ast : Ast) (w : Walking) (visited : Array NodeId) : Prop :=
  ∃ last, Leads ast w last ∧ last.turn ast = none ∧ last.visited = visited

/-- The walk is over when the stack is empty, and then only. -/
theorem turn_eq_none_iff {w : Walking} : w.turn ast = none ↔ w.stack = #[] := by
  simp [turn]

theorem turn_cons (ast : Ast) (visited : Array NodeId) (id : NodeId) (rest : List NodeId) :
    turn ast ⟨visited, (id :: rest).reverse.toArray⟩ =
      some ⟨visited.push id, (ast.children id ++ rest).reverse.toArray⟩ := by
  have top : (id :: rest).reverse.toArray = rest.reverse.toArray.push id := by simp
  rw [turn, top, Array.back?_push, Array.pop_push, Option.map_some]
  simp

/-- The loop takes the turns of `Ast.walk`. -/
theorem leads_walk (older : ∀ id, ∀ child ∈ ast.children id, child < id) (visited : Array NodeId)
    (stack : List NodeId) :
    Leads ast ⟨visited, stack.reverse.toArray⟩ ⟨ast.walk visited stack, #[]⟩ := by
  fun_induction walk ast visited stack with
  | case1 => exact .refl
  | case2 visited id rest ih =>
    have step := turn_cons ast visited id rest
    rw [← below_eq_children (older id)] at step
    exact .head step ih

theorem ends_descendants (older : ∀ id, ∀ child ∈ ast.children id, child < id) (id : NodeId) :
    Ends ast ⟨#[], #[id]⟩ (ast.descendants id) :=
  ⟨_, leads_walk older #[] [id], turn_eq_none_iff.2 rfl, rfl⟩

end Walking

/-! ### The printer -/

/-- The visits of the printer: a node at its level, and one level deeper all that is below it. -/
def visits (ast : Ast) (level : Nat) (id : NodeId) : List (Nat × NodeId) :=
  (level, id) :: (ast.below id).attach.flatMap fun child => ast.visits (level + 1) child.1
termination_by id
decreasing_by exact lt_of_mem_below child.2

theorem visits_eq (ast : Ast) (level : Nat) (id : NodeId) :
    ast.visits level id = (level, id) :: (ast.below id).flatMap (ast.visits (level + 1)) := by
  rw [visits]
  simp [List.flatMap_def]

/-- The printer visits the nodes in the order of the walk. -/
theorem map_visits (ast : Ast) (level : Nat) (id : NodeId) :
    (ast.visits level id).map (·.2) = ast.preorder id := by
  induction id using Nat.strongRecOn generalizing level with
  | ind id ih =>
    rw [visits_eq, preorder_eq, List.map_cons, List.map_flatMap]
    congr 1
    exact List.flatMap_congr fun child part => ih child (lt_of_mem_below part) (level + 1)

/-- The line of a visit. -/
def visitLine (ast : Ast) (visit : Nat × NodeId) : String :=
  ast.outlineLine visit.1 visit.2

/-- Writing the lines of some visits for each of some nodes. -/
theorem foldl_write {write : String → NodeId → String} {visitsOf : NodeId → List (Nat × NodeId)}
    (ids : List NodeId) (text : String)
    (writes : ∀ id ∈ ids, ∀ text, write text id = text ++ String.join ((visitsOf id).map ast.visitLine)) :
    ids.foldl write text = text ++ String.join ((ids.flatMap visitsOf).map ast.visitLine) := by
  induction ids generalizing text with
  | nil => simp
  | cons id ids ih =>
    rw [List.foldl_cons, writes id List.mem_cons_self,
      ih _ fun other mem => writes other (List.mem_cons_of_mem id mem), List.flatMap_cons,
      List.map_append, String.join_append, String.append_assoc]

/-- **The printer writes one line a visit.** -/
theorem outlineFrom_eq_join (ast : Ast) (level : Nat) (text : String) (id : NodeId) :
    ast.outlineFrom level text id = text ++ String.join ((ast.visits level id).map ast.visitLine) := by
  induction id using Nat.strongRecOn generalizing level text with
  | ind id ih =>
    rw [outlineFrom_eq, visits_eq, List.map_cons, String.join_cons, ← String.append_assoc]
    exact foldl_write _ _ fun child part text => ih child (lt_of_mem_below part) (level + 1) text

theorem outline_eq_join (ast : Ast) :
    ast.outline = String.join ((ast.roots.toList.flatMap (ast.visits 0)).map ast.visitLine) := by
  rw [outline, ← Array.foldl_toList, foldl_write _ _ fun root _ text => outlineFrom_eq_join ast 0 text root,
    String.empty_append]

/-! ### All three -/

theorem toList_descendants (ast : Ast) (id : NodeId) :
    (ast.descendants id).toList = ast.preorder id := by
  simp [descendants, walk_eq]

/-- What is visited from a node that is there is there. -/
theorem lt_size_of_mem_visits {level : Nat} {id : NodeId} (here : id < ast.size)
    {visit : Nat × NodeId} (mem : visit ∈ ast.visits level id) : visit.2 < ast.size := by
  have listed : visit.2 ∈ ast.preorder id := map_visits ast level id ▸ List.mem_map_of_mem mem
  exact Nat.lt_of_le_of_lt (le_of_mem_preorder listed) here

/-- **One order of visits**, on every tree that is built node by node. From each node the loop comes to its
end, with all that it was to visit visited: the node and then, part after part, what it visits from each part;
from the roots it visits what it visits from each root. The printer makes the same visits with the level of
each, and writes for each the line of the node, indented by two spaces a level. -/
theorem Grown.visits_agree (h : ast.Grown) :
    (∀ id, Walking.Ends ast ⟨#[], #[id]⟩ (ast.descendants id)) ∧
    (∀ id, (ast.descendants id).toList =
      id :: (ast.children id).flatMap fun child => (ast.descendants child).toList) ∧
    ast.reachable.toList = ast.roots.toList.flatMap (fun root => (ast.descendants root).toList) ∧
    (∀ level id, ast.visits level id = (level, id) :: (ast.children id).flatMap (ast.visits (level + 1))) ∧
    (∀ level id, (ast.visits level id).map (·.2) = (ast.descendants id).toList) ∧
    (ast.roots.toList.flatMap (ast.visits 0)).map (·.2) = ast.reachable.toList ∧
    ast.outline = String.join ((ast.roots.toList.flatMap (ast.visits 0)).map ast.visitLine) ∧
    ∀ level, ∀ id < ast.size, ∀ visit ∈ ast.visits level id, ∃ node, ast.nodes[visit.2]? = some node ∧
      ast.visitLine visit = String.ofList (List.replicate (2 * visit.1) ' ') ++ node.label ++ "\n" := by
  have below := fun id => below_eq_children (h.child_lt id)
  have visited : ∀ level id, (ast.visits level id).map (·.2) = (ast.descendants id).toList :=
    fun level id => by rw [map_visits, toList_descendants]
  have reached : ast.reachable.toList =
      ast.roots.toList.flatMap fun root => (ast.descendants root).toList := by
    simp [reachable, walk_eq, toList_descendants]
  refine ⟨Walking.ends_descendants h.child_lt, fun id => ?_, reached, fun level id => ?_, visited, ?_,
    outline_eq_join ast, fun level id here visit mem => ?_⟩
  · simp only [toList_descendants]
    rw [preorder_eq, below]
  · rw [visits_eq, below]
  · simp only [List.map_flatMap, visited, reached]
  · have there : visit.2 < ast.nodes.size := lt_size_of_mem_visits here mem
    have found : ast.nodes[visit.2]? = some ast.nodes[visit.2] := Array.getElem?_eq_getElem there
    refine ⟨_, found, ?_⟩
    simp only [visitLine, outlineLine, found, indent]

/-- A leaf that is twice a part of one block, and this block a root twice: the leaf is visited four times. -/
theorem visits_agree_shared :
    let leaf := (empty.alloc (.integer 7) ⟨.integer, "7", 1⟩).2
    let pair := (leaf.alloc (.block [0, 0]) ⟨.openCurly, "\x7b", 1⟩).2
    let ast := (pair.pushRoot 1).pushRoot 1
    ast.Grown ∧ Walking.Ends ast ⟨#[], #[1]⟩ #[1, 0, 0] ∧ ast.reachable.toList = [1, 0, 0, 1, 0, 0] ∧
      ast.outline = "Block\n  Integer 7\n  Integer 7\nBlock\n  Integer 7\n  Integer 7\n" := by
  intro leaf pair ast
  have grownPair : pair.Grown := .alloc _ _ (.alloc _ _ .empty (by decide)) (by decide)
  have grown : ast.Grown := .pushRoot 1 (.pushRoot 1 grownPair)
  have visited : ast.descendants 1 = #[1, 0, 0] := by decide +kernel
  obtain ⟨loop, -, reached, -, -, -, printed, -⟩ := grown.visits_agree
  exact ⟨grown, visited ▸ loop 1, reached.trans (by decide +kernel), printed.trans (by decide +kernel)⟩

end Ast
end Viper
