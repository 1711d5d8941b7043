/-
# How deep a tree is

A chain of operators that are grouped to the left is a tree as deep as it is long, and so is a `for` in
the initializer of a `for`, and so on. Such a part goes on with the chain of its construct
(`Construct.continues`). Of the edges on a way down a tree (`Ast.Descends`) those that lead to such a
part are counted apart from the others, which lead deeper.

`Ast.Within` bounds the number of the others: a part is less deep than its construct, or as deep if it
goes on with its chain. What is within a bound can only be left on a way down by so many edges
(`Ast.Within.exists_of_descends`).

Key definitions: `Construct.continues`, `Construct.Covers`, `Ast.Descends`, `Ast.Within`.
Key theorems: `Ast.Within.exists_of_descends`, `Ast.Forest.exists_descends`.
-/
import ViperFrontend.Proofs.Ast.Forest

namespace Viper

namespace Construct

/-- Whether a part goes on with the chain that its construct belongs to. -/
def continues (construct : Construct) (part : NodeId) : Bool :=
  match construct with
  | .binary left _ _ => part = left
  | .forLoop init _ _ _ => part = init
  | _ => false

/-- A part with the given bound on its depth is in place below a construct that is `depth` deep. -/
def Covers (construct : Construct) (depth : Nat) (part : NodeId × Nat) : Prop :=
  part.2 < depth ∨ part.2 ≤ depth ∧ construct.continues part.1 = true

variable {construct : Construct} {depth depth' : Nat} {part : NodeId × Nat}

theorem Covers.le (h : construct.Covers depth part) : part.2 ≤ depth :=
  h.elim Nat.le_of_lt And.left

theorem Covers.lt (h : construct.Covers depth part) (deeper : construct.continues part.1 = false) :
    part.2 < depth := by
  rcases h with less | ⟨-, chained⟩
  · exact less
  · rw [deeper] at chained
    cases chained

theorem Covers.mono (h : construct.Covers depth part) (le : depth ≤ depth') :
    construct.Covers depth' part :=
  h.imp (fun less => Nat.lt_of_lt_of_le less le) (And.imp_left fun less => Nat.le_trans less le)

end Construct

namespace Ast

/-- A way down from `top` with `deeper` edges that lead deeper and `chained` edges that go on with a
chain. -/
inductive Descends (ast : Ast) (top : NodeId) : Nat → Nat → NodeId → Prop
  | here : Descends ast top 0 0 top
  | chain {deeper chained : Nat} {id part : NodeId} {node : Node} :
      Descends ast top deeper chained id → ast.nodes[id]? = some node →
      part ∈ node.construct.children → node.construct.continues part = true →
      Descends ast top deeper (chained + 1) part
  | down {deeper chained : Nat} {id part : NodeId} {node : Node} :
      Descends ast top deeper chained id → ast.nodes[id]? = some node →
      part ∈ node.construct.children → node.construct.continues part = false →
      Descends ast top (deeper + 1) chained part

/-- The tree below a node is `depth` deep at most, chains not counted. -/
inductive Within (ast : Ast) : Nat → NodeId → Prop
  | intro {depth : Nat} {id : NodeId} {face : Construct × Token} (parts : List (NodeId × Nat)) :
      ast.faces[id]? = some face → face.1.children.Perm (parts.map (·.1)) →
      (∀ part ∈ parts, face.1.Covers depth part) → (∀ part ∈ parts, Within ast part.2 part.1) →
      Within ast depth id

variable {ast : Ast} {depth : Nat} {top id : NodeId}

namespace Within

theorem widen {depth' : Nat} (h : ast.Within depth id) (le : depth ≤ depth') :
    ast.Within depth' id := by
  obtain ⟨parts, found, perm, covers, within⟩ := h
  exact .intro parts found perm (fun part mem => (covers part mem).mono le) within

/-- Nodes that come behind others do not make these deeper. -/
theorem mono {ast' : Ast} (larger : ast.faces <+: ast'.faces) (h : ast.Within depth id) :
    ast'.Within depth id := by
  induction h with
  | intro parts found perm covers _ ih =>
    exact .intro parts (getElem?_faces_mono larger found) perm covers ih

/-- The bound of a part is what the construct leaves of its own. -/
theorem exists_part {node : Node} {child : NodeId} (h : ast.Within depth id)
    (found : ast.nodes[id]? = some node) (mem : child ∈ node.construct.children) :
    ∃ rest, ast.Within rest child ∧ node.construct.Covers depth (child, rest) := by
  obtain @⟨_, _, face, parts, here, perm, covers, within⟩ := h
  have same : face = (node.construct, node.token) := by
    rw [getElem?_faces, found] at here
    exact (Option.some.inj here).symm
  subst same
  obtain ⟨part, isPart, rfl⟩ := List.mem_map.1 (perm.mem_iff.1 mem)
  exact ⟨part.2, within part isPart, covers part isPart⟩

/-- **On a way down** every edge that leads deeper takes one of the bound. -/
theorem exists_of_descends {deeper chained : Nat} (h : ast.Within depth top)
    (way : ast.Descends top deeper chained id) :
    ∃ rest, ast.Within rest id ∧ deeper + rest ≤ depth := by
  induction way with
  | here => exact ⟨depth, h, Nat.le_of_eq (Nat.zero_add depth)⟩
  | chain _ found mem _ ih =>
    obtain ⟨rest, within, bound⟩ := ih
    obtain ⟨less, below, covers⟩ := within.exists_part found mem
    exact ⟨less, below, Nat.le_trans (Nat.add_le_add_left covers.le _) bound⟩
  | @down deeper _ _ part _ _ found mem leaves ih =>
    obtain ⟨rest, within, bound⟩ := ih
    obtain ⟨less, below, covers⟩ := within.exists_part found mem
    have strict : less < rest := covers.lt leaves
    exact ⟨less, below, by omega⟩

end Within

theorem Descends.step {deeper chained : Nat} {child : NodeId}
    (way : ast.Descends top deeper chained id) (mem : child ∈ ast.children id) :
    ∃ deeper chained, ast.Descends top deeper chained child := by
  unfold children at mem
  split at mem
  · cases mem
  · rename_i node found
    cases continues : node.construct.continues child with
    | true => exact ⟨deeper, chained + 1, .chain way found mem continues⟩
    | false => exact ⟨deeper + 1, chained, .down way found mem continues⟩

/-- Where the parent links lead up, there is a way down. -/
theorem Forest.exists_descends (forest : ast.Forest) (up : ast.Ascends id top) :
    ∃ deeper chained, ast.Descends top deeper chained id := by
  induction up using Relation.ReflTransGen.head_induction_on with
  | refl => exact ⟨0, 0, .here⟩
  | head link _ ih =>
    obtain ⟨deeper, chained, way⟩ := ih
    exact way.step ((forest.parent_iff _ _).1 link)

end Ast
end Viper
