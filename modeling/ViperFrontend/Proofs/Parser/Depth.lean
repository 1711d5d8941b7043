/-
# What the limit of nesting bounds

Each level of nesting leaves room for so many edges that lead deeper: a course of a parse keeps a bound
for every node in hand (`Parser.State.Course.within_hand`), and an item of the file has one that is
given by the limit. That holds of every source, for what is thrown away on the way makes no tree deeper,
and an invalid node has nothing below it.

So a walk down the tree comes no deeper than the limit allows, except along chains of operators that
are grouped to the left and of `for`s in initializers.

Key theorems: `Parser.State.Course.within_hand`, `Parser.State.Course.within_roots`,
`Source.depth_le_of_nesting`.
-/
import ViperFrontend.Proofs.Parser.Levels
import ViperFrontend.Proofs.Parser.Construction

namespace Viper

open Viper.Parser

namespace Parser.State

variable {origin t : State} {hand : List (NodeId × Nat)}

/-- **A node in hand is as deep as its bound** at most. -/
theorem Course.within_hand (h : origin.Course t hand) : ∀ part ∈ hand, t.ast.Within part.2 part.1 := by
  induction h with
  | start => nofun
  | advance _ ih => rwa [ast_advance]
  | record n _ _ ih => simpa using ih
  | @alloc t kept used construct depth token _ _ parts covers ih =>
    have larger := Ast.faces_extend_alloc t.ast construct token
    intro part mem
    rcases List.mem_append.1 mem with older | new
    · exact (ih part (List.mem_append_left _ older)).mono larger
    · rw [List.mem_singleton.1 new]
      refine .intro used (Ast.getElem?_faces_alloc t.ast construct token) parts.perm covers ?_
      exact fun part mem => (ih part (List.mem_append_right _ mem)).mono larger
  | @recover _ t kept _ _ _ _ _ _ ih _ =>
    intro part mem
    rcases List.mem_append.1 mem with older | new
    · refine (ih part (List.mem_append_left _ older)).mono ?_
      exact Ast.faces_extend_alloc t.ast .invalid t.current
    · rw [List.mem_singleton.1 new]
      exact .intro [] (Ast.getElem?_faces_alloc t.ast .invalid t.current) (.refl _) nofun nofun
  | widen _ le ih =>
    intro part mem
    rcases List.mem_append.1 mem with older | new
    · exact ih part (List.mem_append_left _ older)
    · rw [List.mem_singleton.1 new]
      exact (ih _ (List.mem_append_right _ List.mem_cons_self)).widen le
  | pushRoot _ _ => nofun

/-- **An item is as deep as the limit allows** at most. -/
theorem Course.within_roots (h : origin.Course t hand) (none : origin.ast.roots = #[]) :
    ∀ root ∈ t.ast.roots, t.ast.Within (2 * origin.limit + 4) root := by
  induction h with
  | start => simp [none]
  | advance _ ih => rwa [ast_advance]
  | record n _ _ ih => simpa using ih
  | @alloc t _ _ construct _ token _ _ _ _ ih =>
    exact fun root mem => (ih root mem).mono (Ast.faces_extend_alloc t.ast construct token)
  | @recover _ t _ _ _ _ _ _ _ ih _ =>
    exact fun root mem => (ih root mem).mono (Ast.faces_extend_alloc t.ast .invalid t.current)
  | widen _ _ ih => exact ih
  | @pushRoot t id course ih =>
    intro root mem
    have item : t.ast.Within (2 * t.limit + 4) id := course.within_hand _ List.mem_cons_self
    rw [course.reaches.limit_eq] at item
    have same : t.ast.faces <+: (t.pushRoot id).ast.faces := List.prefix_refl _
    rcases Array.mem_push.1 mem with older | rfl
    · exact (ih root older).mono same
    · exact item.mono same

end Parser.State

namespace Source

/-- **What the nesting limit bounds.** On every way down from a root, whatever the source, all but
`2 * maxNesting + 4` edges at most lead from an operator to its left operand or from a `for` to its
initializer. Every reachable node is on such a way. -/
theorem depth_le_of_nesting (source : Source) :
    let ast := source.parse.ast
    (∀ root ∈ ast.roots, ∀ deeper chained id, ast.Descends root deeper chained id →
      deeper ≤ 2 * maxNesting + 4) ∧
      ∀ id ∈ ast.reachable, ∃ root ∈ ast.roots, ∃ deeper chained,
        ast.Descends root deeper chained id := by
  intro ast
  obtain ⟨last, ends, -, course⟩ := source.course_parseWith maxNesting
  have tree : ast = last.ast := congrArg Parsed.ast ends
  have forest : ast.Forest := forest_parseWith maxNesting source
  constructor
  · intro root isRoot deeper chained id way
    rw [tree] at isRoot way
    have within := course.within_roots rfl root isRoot
    obtain ⟨rest, -, bound⟩ := within.exists_of_descends way
    exact Nat.le_trans (Nat.le_add_right deeper rest) bound
  · intro id mem
    rw [← Array.mem_toList_iff, Ast.reachable, Ast.walk_eq] at mem
    obtain ⟨root, isRoot, below⟩ := List.mem_flatMap.1 mem
    exact ⟨root, Array.mem_toList_iff.1 isRoot,
      forest.exists_descends (forest.ascends_of_mem_preorder below)⟩

end Source
end Viper
