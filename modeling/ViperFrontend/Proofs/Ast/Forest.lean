/-
# Syntax trees are forests

A tree that is built node by node, each node over parts that no node has taken yet, is a
forest: a part has a smaller number than the node it belongs to, it belongs to one node only,
and its parent link leads to that node (`Forest`). Making a node keeps this
(`Forest.alloc`), so all that a builder has to watch is that it never uses a part twice.

In a forest a walk from distinct nodes without a parent visits no node twice
(`Forest.nodup_preorder`), and from every visited node the parent links lead back to the
node the walk came from (`Forest.ascends_unique`).

Key definitions: `Ast.faces`, `Ast.Forest`, `Ast.Orphan`, `Ast.Ascends`, `Ast.preorder`.
Key theorems: `Ast.Forest.alloc`, `Ast.walk_eq`, `Ast.Forest.nodup_preorder`.
-/
import Mathlib.Logic.Relation
import Mathlib.Data.List.Nodup
import ViperFrontend.Ast.Walk

namespace Viper
namespace Ast

/-- What a node keeps for good: its construct and its token. Only its parent may change. -/
def faces (ast : Ast) : List (Construct × Token) :=
  ast.nodes.toList.map fun node => (node.construct, node.token)

theorem length_faces (ast : Ast) : ast.faces.length = ast.size := by
  simp [faces, size]

theorem getElem?_faces (ast : Ast) (id : NodeId) :
    ast.faces[id]? = ast.nodes[id]?.map fun node => (node.construct, node.token) := by
  simp [faces]

theorem children_eq (ast : Ast) (id : NodeId) :
    ast.children id = (ast.faces[id]?.map (·.1.children)).getD [] := by
  rw [getElem?_faces, children]
  cases ast.nodes[id]? <;> rfl

/-- Adopting changes the parents of the children and nothing else. -/
theorem getElem?_adopt (parent : NodeId) (children : List NodeId) (nodes : Array Node)
    (id : NodeId) :
    (adopt parent children nodes)[id]? = nodes[id]?.map fun node =>
      if id ∈ children then { node with parent := some parent } else node := by
  unfold adopt
  induction children generalizing nodes with
  | nil => simp
  | cons child children ih =>
    rw [List.foldl_cons, ih, Array.getElem?_modify]
    by_cases same : child = id
    · subst same
      cases nodes[child]? with
      | none => simp
      | some node => by_cases again : child ∈ children <;> simp [again]
    · have other : ¬ id = child := fun h => same h.symm
      simp [same, other]

theorem faces_alloc (ast : Ast) (construct : Construct) (token : Token) :
    (ast.alloc construct token).2.faces = ast.faces ++ [(construct, token)] := by
  apply List.ext_getElem?
  intro id
  have pushed : ast.faces ++ [(construct, token)] =
      (ast.nodes.push ⟨construct, token, none⟩).toList.map fun node =>
        (node.construct, node.token) := by
    simp [faces]
  rw [pushed, getElem?_faces, alloc, getElem?_adopt, List.getElem?_map, Array.getElem?_toList]
  cases (ast.nodes.push ⟨construct, token, none⟩)[id]? with
  | none => rfl
  | some node => by_cases adopted : id ∈ construct.children <;> simp [adopted]

theorem faces_extend_alloc (ast : Ast) (construct : Construct) (token : Token) :
    ast.faces <+: (ast.alloc construct token).2.faces := by
  rw [faces_alloc]
  exact List.prefix_append _ _

/-- A new node comes behind all others. -/
theorem getElem?_faces_alloc (ast : Ast) (construct : Construct) (token : Token) :
    (ast.alloc construct token).2.faces[ast.size]? = some (construct, token) := by
  rw [faces_alloc, ← length_faces]
  simp

/-- Behind the old nodes there is the new one. -/
theorem getElem?_faces_alloc_iff {ast : Ast} {construct : Construct} {token : Token} {id : NodeId}
    {face : Construct × Token} : (ast.alloc construct token).2.faces[id]? = some face ↔
      ast.faces[id]? = some face ∨ id = ast.size ∧ face = (construct, token) := by
  rw [faces_alloc, ← length_faces]
  rcases Nat.lt_trichotomy id ast.faces.length with old | rfl | late
  · rw [List.getElem?_append_left old]
    simp [Nat.ne_of_lt old]
  · simp [eq_comm]
  · have beyond : (ast.faces ++ [(construct, token)]).length ≤ id := by
      rw [List.length_append]
      exact late
    rw [List.getElem?_eq_none beyond, List.getElem?_eq_none (Nat.le_of_lt late)]
    simp [Nat.ne_of_gt late]

/-- Nodes that come behind others do not change them. -/
theorem getElem?_faces_mono {ast ast' : Ast} (larger : ast.faces <+: ast'.faces) {id : NodeId}
    {face : Construct × Token} (found : ast.faces[id]? = some face) :
    ast'.faces[id]? = some face := by
  obtain ⟨more, grown⟩ := larger
  rw [← grown]
  exact List.getElem?_append_left (List.getElem?_eq_some_iff.1 found).1 ▸ found

/-- A new node becomes the parent of its parts. -/
theorem parent_alloc (ast : Ast) (construct : Construct) (token : Token) (id : NodeId) :
    (ast.alloc construct token).2.parent id =
      if id ∈ construct.children ∧ id ≤ ast.size then some ast.size else ast.parent id := by
  rw [parent, alloc, getElem?_adopt, Array.getElem?_push]
  unfold size parent
  rcases Nat.lt_trichotomy id ast.nodes.size with old | new | late
  · have present : ast.nodes[id]? = some ast.nodes[id] := Array.getElem?_eq_getElem old
    have le := Nat.le_of_lt old
    rw [if_neg (Nat.ne_of_lt old), present]
    by_cases adopted : id ∈ construct.children <;> simp [adopted, le]
  · rw [if_pos new, new]
    by_cases adopted : ast.nodes.size ∈ construct.children <;> simp [adopted]
  · have absent : ast.nodes[id]? = none := Array.getElem?_eq_none (Nat.le_of_lt late)
    have not_le := Nat.not_le_of_lt late
    rw [if_neg (Nat.ne_of_gt late), absent]
    simp [not_le]

/-! ### Forests -/

/-- Parts are older than the node they belong to, belong to one node, and link back to it. -/
structure Forest (ast : Ast) : Prop where
  child_lt : ∀ id : NodeId, ∀ child ∈ ast.children id, child < id
  nodup : (ast.faces.flatMap (·.1.children)).Nodup
  parent_iff : ∀ child id : NodeId, ast.parent child = some id ↔ child ∈ ast.children id

/-- A node that is part of no other. -/
structure Orphan (ast : Ast) (id : NodeId) : Prop where
  lt_size : id < ast.size
  parent_eq : ast.parent id = none

/-- An orphan that the new node does not take stays one. -/
theorem Orphan.alloc {ast : Ast} {id : NodeId} (h : ast.Orphan id) {construct : Construct}
    (token : Token) (free : id ∉ construct.children) :
    (ast.alloc construct token).2.Orphan id where
  lt_size := by
    rw [size_alloc]
    exact Nat.lt_succ_of_lt h.lt_size
  parent_eq := by rw [parent_alloc, if_neg fun both => free both.1, h.parent_eq]

/-- A new node over old ones is an orphan. -/
theorem orphan_alloc {ast : Ast} {construct : Construct} (token : Token)
    (old : ∀ id ∈ construct.children, id < ast.size) :
    (ast.alloc construct token).2.Orphan ast.size where
  lt_size := by
    rw [size_alloc]
    exact Nat.lt_succ_self _
  parent_eq := by
    rw [parent_alloc, if_neg fun both => Nat.lt_irrefl _ (old _ both.1)]
    simp [parent, size]

theorem forest_empty : Forest empty where
  child_lt id child h := by simp [children, empty] at h
  nodup := by simp [faces, empty]
  parent_iff child id := by simp [parent, children, empty]

/-- The parts of a node that is there are parts of some node. -/
theorem exists_mem_children {ast : Ast} {child : NodeId}
    (h : child ∈ ast.faces.flatMap (·.1.children)) : ∃ id, child ∈ ast.children id := by
  obtain ⟨c, mem, part⟩ := List.mem_flatMap.1 h
  obtain ⟨id, face⟩ := List.mem_iff_getElem?.1 mem
  exact ⟨id, by simpa [children_eq, face] using part⟩

theorem children_alloc (ast : Ast) (construct : Construct) (token : Token) (id : NodeId) :
    (ast.alloc construct token).2.children id =
      if id = ast.size then construct.children else ast.children id := by
  rw [children_eq, children_eq, faces_alloc, List.getElem?_append, length_faces]
  rcases Nat.lt_trichotomy id ast.size with old | new | late
  · rw [if_pos old, if_neg (Nat.ne_of_lt old)]
  · simp [new]
  · have absent : ast.faces[id]? = none :=
      List.getElem?_eq_none (by rw [length_faces]; exact Nat.le_of_lt late)
    have beyond : [(construct, token)][id - ast.size]? = none :=
      List.getElem?_eq_none (Nat.sub_pos_of_lt late)
    rw [if_neg (Nat.lt_asymm late), if_neg (Nat.ne_of_gt late), absent, beyond]

namespace Forest

variable {ast : Ast}

theorem not_mem_of_orphan (h : ast.Forest) {id : NodeId} (orphan : ast.Orphan id) :
    id ∉ ast.faces.flatMap (·.1.children) := by
  intro mem
  obtain ⟨p, child⟩ := exists_mem_children mem
  rw [← h.parent_iff, orphan.parent_eq] at child
  cases child

/-- **Making a node keeps a forest**, if its parts are distinct and belong to no node yet. -/
theorem alloc (h : ast.Forest) {construct : Construct} {token : Token}
    (nodup : construct.children.Nodup) (orphans : ∀ id ∈ construct.children, ast.Orphan id) :
    (ast.alloc construct token).2.Forest where
  child_lt id child mem := by
    rw [children_alloc] at mem
    split at mem
    · rename_i new
      rw [new]
      exact (orphans child mem).lt_size
    · exact h.child_lt id child mem
  nodup := by
    rw [faces_alloc, List.flatMap_append, List.nodup_append]
    refine ⟨h.nodup, by simpa using nodup, ?_⟩
    intro a old b new same
    rw [List.flatMap_singleton] at new
    exact h.not_mem_of_orphan (orphans b new) (same ▸ old)
  parent_iff child id := by
    rw [parent_alloc, children_alloc]
    by_cases adopted : child ∈ construct.children
    · have orphan := orphans child adopted
      have old : child ≤ ast.size := Nat.le_of_lt orphan.lt_size
      rw [if_pos ⟨adopted, old⟩]
      by_cases new : id = ast.size
      · simp [new, adopted]
      · have other : child ∉ ast.children id := by
          rw [← h.parent_iff, orphan.parent_eq]
          simp
        have differ : ¬ ast.size = id := fun e => new e.symm
        simp [new, other, differ]
    · rw [if_neg (fun both => adopted both.1)]
      by_cases new : id = ast.size
      · have unlinked : ast.parent child ≠ some ast.size := by
          rw [ne_eq, h.parent_iff, children_eq, List.getElem?_eq_none (Nat.le_of_eq (length_faces ast))]
          simp
        simpa [new, adopted] using unlinked
      · simpa [new] using h.parent_iff child id

end Forest

/-! ### Walks visit each node once -/

/-- A node and everything below it, parents first. -/
def preorder (ast : Ast) (id : NodeId) : List NodeId :=
  id :: (ast.below id).attach.flatMap fun child => ast.preorder child.1
termination_by id
decreasing_by exact lt_of_mem_below child.2

theorem preorder_eq (ast : Ast) (id : NodeId) :
    ast.preorder id = id :: (ast.below id).flatMap ast.preorder := by
  rw [preorder]
  simp [List.flatMap_def]

/-- The walk with a stack visits, for each node of the stack, what is below it. -/
theorem walk_eq (ast : Ast) (visited : Array NodeId) (stack : List NodeId) :
    (ast.walk visited stack).toList = visited.toList ++ stack.flatMap ast.preorder := by
  fun_induction walk ast visited stack with
  | case1 => simp
  | case2 visited id stack ih => rw [ih, List.flatMap_cons, preorder_eq ast id]; simp

/-- Where the parts of a node are older than the node, the walk goes to all of them. -/
theorem below_eq_children {ast : Ast} {id : NodeId} (older : ∀ child ∈ ast.children id, child < id) :
    ast.below id = ast.children id := by
  rw [below, List.filter_eq_self]
  exact fun child mem => decide_eq_true (older child mem)

/-- The parent links lead from `id` to `above`. -/
def Ascends (ast : Ast) (id above : NodeId) : Prop :=
  Relation.ReflTransGen (fun child parent => ast.parent child = some parent) id above

theorem Ascends.eq_of_orphan {ast : Ast} {id above : NodeId} (h : ast.Ascends id above)
    (orphan : ast.Orphan id) : above = id := by
  rcases Relation.ReflTransGen.cases_head h with same | ⟨p, link, -⟩
  · exact same.symm
  · rw [orphan.parent_eq] at link
    cases link

/-- Parent links do not branch: of two nodes above a third one is above the other. -/
theorem Ascends.total {ast : Ast} {id a b : NodeId} (ha : ast.Ascends id a)
    (hb : ast.Ascends id b) : ast.Ascends a b ∨ ast.Ascends b a := by
  apply Relation.ReflTransGen.total_of_right_unique _ ha hb
  intro x y z hy hz
  rw [hy] at hz
  exact Option.some.inj hz

namespace Forest

variable {ast : Ast}

theorem below_eq (h : ast.Forest) (id : NodeId) : ast.below id = ast.children id :=
  below_eq_children (h.child_lt id)

theorem le_of_ascends (h : ast.Forest) {id above : NodeId} (up : ast.Ascends id above) :
    id ≤ above := by
  induction up with
  | refl => exact Nat.le_refl id
  | tail _ link ih => exact Nat.le_trans ih (Nat.le_of_lt (h.child_lt _ _ ((h.parent_iff _ _).1 link)))

theorem ascends_of_mem_preorder (h : ast.Forest) {id visited : NodeId}
    (mem : visited ∈ ast.preorder id) : ast.Ascends visited id := by
  induction id using Nat.strongRecOn generalizing visited with
  | ind id ih =>
    rw [preorder_eq, h.below_eq] at mem
    rcases List.mem_cons.1 mem with same | deeper
    · rw [same]
      exact .refl
    · obtain ⟨child, part, mem⟩ := List.mem_flatMap.1 deeper
      exact .tail (ih child (h.child_lt id child part) mem) ((h.parent_iff child id).2 part)

theorem nodup_children (h : ast.Forest) (id : NodeId) : (ast.children id).Nodup := by
  rw [children_eq]
  cases face : ast.faces[id]? with
  | none => exact List.nodup_nil
  | some c => exact (List.nodup_flatMap.1 h.nodup).1 c (List.mem_of_getElem? face)

/-- Nothing is below two parts of one node. -/
theorem disjoint_children (h : ast.Forest) {id a b visited : NodeId} (ha : a ∈ ast.children id)
    (hb : b ∈ ast.children id) (va : visited ∈ ast.preorder a) (vb : visited ∈ ast.preorder b) :
    a = b := by
  -- If one part were above the other, so would be the node that both belong to.
  have apart : ∀ x y : NodeId, x ∈ ast.children id → y ∈ ast.children id → ast.Ascends x y →
      x = y := by
    intro x y hx hy up
    rcases Relation.ReflTransGen.cases_head up with same | ⟨p, link, rest⟩
    · exact same
    · rw [(h.parent_iff x id).2 hx] at link
      cases link
      exact absurd (h.le_of_ascends rest) (Nat.not_le_of_lt (h.child_lt id y hy))
  rcases (h.ascends_of_mem_preorder va).total (h.ascends_of_mem_preorder vb) with up | up
  · exact apart a b ha hb up
  · exact (apart b a hb ha up).symm

theorem nodup_preorder_one (h : ast.Forest) (id : NodeId) : (ast.preorder id).Nodup := by
  induction id using Nat.strongRecOn with
  | ind id ih =>
    rw [preorder_eq, h.below_eq, List.nodup_cons, List.nodup_flatMap]
    refine ⟨?_, fun child part => ih child (h.child_lt id child part), ?_⟩
    · intro mem
      obtain ⟨child, part, mem⟩ := List.mem_flatMap.1 mem
      exact absurd (h.le_of_ascends (h.ascends_of_mem_preorder mem))
        (Nat.not_le_of_lt (h.child_lt id child part))
    · refine (h.nodup_children id).imp_of_mem ?_
      intro a b ha hb ne visited va vb
      exact ne (h.disjoint_children ha hb va vb)

/-- **A walk from orphans visits no node twice.** -/
theorem nodup_preorder (h : ast.Forest) {starts : List NodeId} (nodup : starts.Nodup)
    (orphans : ∀ id ∈ starts, ast.Orphan id) : (starts.flatMap ast.preorder).Nodup := by
  rw [List.nodup_flatMap]
  refine ⟨fun id _ => h.nodup_preorder_one id, nodup.imp_of_mem ?_⟩
  intro a b ha hb ne visited va vb
  rcases (h.ascends_of_mem_preorder va).total (h.ascends_of_mem_preorder vb) with up | up
  · exact ne (up.eq_of_orphan (orphans a ha)).symm
  · exact ne (up.eq_of_orphan (orphans b hb))

/-- **From a visited node the parent links lead to one orphan**, that from which the walk
came to it. -/
theorem ascends_unique (h : ast.Forest) {starts : List NodeId}
    (orphans : ∀ id ∈ starts, ast.Orphan id) {visited : NodeId}
    (mem : visited ∈ starts.flatMap ast.preorder) :
    ∃! start, start ∈ starts ∧ ast.Ascends visited start := by
  obtain ⟨start, from_start, mem⟩ := List.mem_flatMap.1 mem
  have up := h.ascends_of_mem_preorder mem
  refine ⟨start, ⟨from_start, up⟩, ?_⟩
  rintro other ⟨from_other, up'⟩
  rcases up.total up' with higher | higher
  · exact higher.eq_of_orphan (orphans start from_start)
  · exact (higher.eq_of_orphan (orphans other from_other)).symm

end Forest
end Ast
end Viper
