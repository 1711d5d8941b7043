/-
# A parse without errors adopts every node

Until something is recorded, a parse throws no node away. What it has made are then the trees of the
items handed over to the file, in order, and behind them those of the nodes in hand, and together they
take up all numbers without a gap (`Parser.State.Course.tiles`). At the end nothing is in hand. So if
nothing was recorded at all, every node is below a root, and each has an interval with what is below it.

Key theorems: `Parser.State.Course.tiles`, `Source.adopts_every_node`.
-/
import ViperFrontend.Proofs.Ast.Intervals
import ViperFrontend.Proofs.Parser.Invalid

namespace Viper

open Viper.Parser

namespace Parser.State

variable {origin t : State} {hand : List (NodeId × Nat)}

theorem errors_record_ne (t : State) (e : SyntaxError) : (t.record e).errors ≠ #[] := by
  simp [record]

/-- **As long as nothing is recorded**, the roots and the nodes in hand have all nodes below them, each
tree behind the one before. -/
theorem Course.tiles (h : origin.Course t hand) (empty : origin.ast = Ast.empty)
    (clean : t.errors = #[]) :
    t.ast.Tiles 0 (t.ast.roots.toList ++ hand.map (·.1)) t.ast.size := by
  induction h with
  | start =>
    rw [empty]
    exact .nil 0
  | advance _ ih =>
    rw [ast_advance]
    exact ih (Reaches.refl.advance.errors_eq_empty clean)
  | @record t _ e n _ _ _ => exact absurd clean (errors_record_ne _ e)
  | @alloc t kept used construct depth token _ _ parts _ ih =>
    have before := ih clean
    rw [List.map_append, ← List.append_assoc] at before
    rw [List.map_append, ← List.append_assoc]
    show (t.ast.alloc construct token).2.Tiles 0
      (t.ast.roots.toList ++ kept.map (·.1) ++ [t.ast.size]) (t.ast.alloc construct token).2.size
    rw [Ast.size_alloc]
    exact before.alloc token parts.perm
  | @recover _ t _ _ _ e _ _ _ _ _ => exact absurd clean (errors_record_ne t e)
  | widen _ _ ih => simpa using ih clean
  | @pushRoot t id _ ih =>
    have before : t.ast.Tiles 0 (t.ast.roots.toList ++ [id]) t.ast.size := ih clean
    have roots : (t.pushRoot id).ast.roots.toList = t.ast.roots.toList ++ [id] := Array.toList_push
    rw [roots, List.map_nil, List.append_nil]
    exact before.mono (List.prefix_refl t.ast.faces)

end Parser.State

namespace Source

/-- **An error-free parse leaves no garbage.** If a source has no diagnostic, no node of its tree is
invalid, the walk from the roots visits every node once, and the nodes below a node and the node itself
are those with the numbers from some first one to its own. -/
theorem adopts_every_node (source : Source) (clean : source.parse.errors = #[]) :
    let ast := source.parse.ast
    ast.countInvalid = 0 ∧
      ast.reachable.toList.Perm (List.range ast.size) ∧
      ∀ id < ast.size, ∃ first ≤ id,
        (ast.descendants id).toList.Perm (List.range' first (id + 1 - first)) := by
  intro ast
  obtain ⟨last, ends, -, course⟩ := source.course_parseWith maxNesting
  have tree : ast = last.ast := congrArg Parsed.ast ends
  have errors : last.errors = #[] := (congrArg Parsed.errors ends).symm.trans clean
  have forest : ast.Forest := forest_parseWith maxNesting source
  have tiles : ast.Tiles 0 ast.roots.toList ast.size := by
    rw [tree]
    simpa using course.tiles rfl errors
  refine ⟨?_, ?_, fun id bound => ?_⟩
  · obtain ⟨errorOf, paid⟩ := course.exists_paidBy rfl
    have invalids := paid.count_le
    rw [errors, ← tree] at invalids
    have visited := Ast.countInvalid_le (nodup_reachable maxNesting source)
    exact Nat.le_zero.1 (Nat.le_trans visited invalids)
  · rw [Ast.reachable, Ast.walk_eq, List.range_eq_range']
    exact tiles.perm_preorder forest
  · obtain ⟨first, le, tile⟩ := tiles.exists_interval (Nat.zero_le id) bound
    exact ⟨first, le, tile.perm_descendants forest⟩

/-- A struct with a procedure between its fields, and in it an `elif` behind an `if`, a group and a
chain of members with a call and an index: of its members the second field is made last. -/
theorem adopts_every_node_struct :
    let source : Source := ⟨"f.viper", "struct S \x7b x :: int; proc f(): void \x7b" ++
      "if a \x7b a = (b + c) * d; \x7d elif b \x7b a.b.f(c[d]); \x7d \x7d y :: int; \x7d"⟩
    let ast := source.parse.ast
    (source.parse.errors = #[] ∧ ast.children 29 = [1, 28, 26]) ∧
      ast.countInvalid = 0 ∧
      ast.reachable.toList.Perm (List.range ast.size) ∧
      ∀ id < ast.size, ∃ first ≤ id,
        (ast.descendants id).toList.Perm (List.range' first (id + 1 - first)) := by
  intro source ast
  have clean : source.parse.errors = #[] := by decide +kernel
  exact ⟨⟨clean, by decide +kernel⟩, adopts_every_node source clean⟩

end Source
end Viper
