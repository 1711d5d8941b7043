/-
# Syntax trees

All nodes of a file live in one array, in the order in which they were made, and a node's
number is its place there. The roots are the nodes of the file's items, in order. Making a
node links its children back to it.

Key definitions: `Ast`, `Ast.alloc`, `Ast.pushRoot`, `Ast.children`, `Ast.parent`.
Key theorems: `Ast.size_alloc`.
-/
import ViperFrontend.Ast.Node

namespace Viper

/-- The nodes of a file and the numbers of its items. -/
structure Ast where
  nodes : Array Node
  roots : Array NodeId
deriving DecidableEq, Repr, Inhabited

namespace Ast

/-- The tree without nodes. -/
def empty : Ast := ⟨#[], #[]⟩

/-- The number of nodes. -/
def size (ast : Ast) : Nat := ast.nodes.size

/-- Makes `parent` the parent of each of the children. -/
def adopt (parent : NodeId) (children : List NodeId) (nodes : Array Node) : Array Node :=
  children.foldl (fun nodes child => nodes.modify child ({ · with parent := some parent })) nodes

/-- A new node, and the tree with it. -/
def alloc (ast : Ast) (construct : Construct) (token : Token) : NodeId × Ast :=
  let id := ast.nodes.size
  let nodes := ast.nodes.push ⟨construct, token, none⟩
  (id, { ast with nodes := adopt id construct.children nodes })

/-- The tree with one more item. -/
def pushRoot (ast : Ast) (id : NodeId) : Ast :=
  { ast with roots := ast.roots.push id }

/-- The children of a node, in the order of its construct. -/
def children (ast : Ast) (id : NodeId) : List NodeId :=
  match ast.nodes[id]? with
  | none => []
  | some node => node.construct.children

/-- The node that made this one its child last. -/
def parent (ast : Ast) (id : NodeId) : Option NodeId :=
  ast.nodes[id]?.bind (·.parent)

@[simp]
theorem size_adopt (parent : NodeId) (children : List NodeId) (nodes : Array Node) :
    (adopt parent children nodes).size = nodes.size := by
  unfold adopt
  induction children generalizing nodes with
  | nil => rfl
  | cons child children ih => rw [List.foldl_cons, ih, Array.size_modify]

@[simp]
theorem size_alloc (ast : Ast) (construct : Construct) (token : Token) :
    (ast.alloc construct token).2.size = ast.size + 1 := by
  simp [alloc, size]

end Ast
end Viper
