/-
# Parts in the order of the source

Nodes are numbered in the order in which they are made, along the tokens of the source. A construct takes
its parts from those in hand. These are in that order, and so are the trees below them: what is below one
was made before all that is below the next (`State.Course.ordered`). So each construct lists its parts as
the source has them, with one exception: a struct lists its fields before its methods, and the source may
mix the two. Then its parts are in the order of the source only if it declares no field behind a method
(`Source.children_ascend_iff`).

Key definitions: `Construct.FieldsFirst`.
Key theorems: `Parser.State.Course.ordered`, `Source.children_ascend_iff`.
-/
import ViperFrontend.Proofs.Ast.Order
import ViperFrontend.Proofs.Parser.Levels

namespace Viper

namespace Construct

/-- Every field of a struct was made before each of its methods. -/
def FieldsFirst (construct : Construct) : Prop :=
  match construct with
  | .structDecl _ fields methods => ∀ field ∈ fields, ∀ method ∈ methods, field < method
  | _ => True

variable {construct : Construct} {ids : List NodeId} {r : NodeId → NodeId → Prop}

theorem fieldsFirst_of_not_struct
    (other : ∀ name fields methods, construct ≠ .structDecl name fields methods) :
    construct.FieldsFirst := by
  cases construct with
  | structDecl => exact (other _ _ _ rfl).elim
  | _ => trivial

/-- Parts that were taken in some order are listed in it, unless there is a field behind a method. -/
theorem Takes.pairwise_children_iff (h : construct.Takes ids) (parts : ids.Pairwise r)
    (increasing : ∀ a b, r a b → a < b) : construct.children.Pairwise r ↔ construct.FieldsFirst := by
  unfold Takes at h
  split at h
  · rename_i fields methods
    obtain ⟨perm, fieldsIn, methodsIn⟩ := h
    simp only [FieldsFirst, children, List.pairwise_append, parts.sublist fieldsIn,
      parts.sublist methodsIn, true_and]
    -- Of two parts that were taken the older one came first.
    have first : ∀ a ∈ ids, ∀ b ∈ ids, a < b → r a b := by
      intro a ha b hb
      refine List.Pairwise.forall_of_forall_of_flip (R := fun a b => a < b → r a b) ?_ ?_ ?_ ha hb
      · exact fun a _ less => absurd less (Nat.lt_irrefl a)
      · exact parts.imp fun {a b} rab (_ : a < b) => rab
      · exact parts.imp fun {a b} rab (less : b < a) => absurd less (Nat.lt_asymm (increasing a b rab))
    constructor
    · exact fun all field hf method hm => increasing _ _ (all field hf method hm)
    · exact fun less field hf method hm =>
        first field (fieldsIn.subset hf) method (methodsIn.subset hm) (less field hf method hm)
  · rename_i other
    subst h
    exact iff_of_true parts (fieldsFirst_of_not_struct other)

end Construct

namespace Parser.State

variable {origin t : State} {hand : List (NodeId × Nat)}

/-- The nodes in hand are in order with their trees, and so were the parts of each construct when they
were taken. -/
structure Ordered (t : State) (ids : List NodeId) : Prop where
  inHand : t.ast.Along ids
  taken : ∀ face ∈ t.ast.faces, ∃ parts, face.1.Takes parts ∧ t.ast.Along parts

theorem Ordered.of_ast_eq {u : State} {ids : List NodeId} (h : t.Ordered ids) (same : u.ast = t.ast) :
    u.Ordered ids :=
  ⟨same ▸ h.inHand, same ▸ h.taken⟩

theorem Ordered.sublist {ids others : List NodeId} (h : t.Ordered ids) (sub : others.Sublist ids) :
    t.Ordered others :=
  ⟨h.inHand.sublist sub, h.taken⟩

theorem Ordered.alloc {kept used : List NodeId} (h : t.Ordered (kept ++ used)) {construct : Construct}
    (token : Token) (parts : construct.Takes used) :
    (t.alloc construct token).2.Ordered (kept ++ [t.ast.size]) where
  inHand := h.inHand.alloc token fun _ mem => parts.perm.subset mem
  taken := by
    have larger := Ast.faces_extend_alloc t.ast construct token
    have last := h.inHand.sublist (List.sublist_append_right kept used)
    show ∀ face ∈ (t.ast.alloc construct token).2.faces, _
    rw [Ast.faces_alloc, List.forall_mem_append, List.forall_mem_singleton]
    refine ⟨fun face mem => ?_, used, parts, last.mono larger⟩
    obtain ⟨ids, takes, along⟩ := h.taken face mem
    exact ⟨ids, takes, along.mono larger⟩

/-- The file's list of roots is not a part of any node. -/
theorem Ordered.pushRoot (id : NodeId) {ids : List NodeId} (h : t.Ordered ids) :
    (t.pushRoot id).Ordered ids where
  inHand := h.inHand.mono (List.prefix_refl t.ast.faces)
  taken face mem := by
    obtain ⟨parts, takes, along⟩ := h.taken face mem
    exact ⟨parts, takes, along.mono (List.prefix_refl t.ast.faces)⟩

/-- **A parse makes its nodes along the source.** -/
theorem Course.ordered (h : origin.Course t hand) (empty : origin.ast = Ast.empty) :
    t.Ordered (hand.map (·.1)) := by
  induction h with
  | start => exact ⟨.nil, by simp [empty, Ast.empty, Ast.faces]⟩
  | advance _ ih => exact ih.of_ast_eq (ast_advance _)
  | record n _ _ ih => exact ih.of_ast_eq (ast_iterate_advance n _)
  | alloc token _ _ parts _ ih =>
    rw [List.map_append] at ih ⊢
    exact ih.alloc token parts
  | @recover _ t kept lost _ e _ _ _ ih _ =>
    -- What is in hand of the refused construct is thrown away, and the invalid node takes nothing.
    rw [List.map_append] at ih ⊢
    have recorded : (t.record e).Ordered _ := ih.of_ast_eq rfl
    have stays := (List.nil_sublist (lost.map (·.1))).append_left (kept.map (·.1))
    exact (recorded.sublist stays).alloc t.current rfl
  | widen _ _ ih => simpa using ih
  | pushRoot _ ih => exact (ih.sublist (List.nil_sublist _)).pushRoot _

end Parser.State

namespace Source

theorem along_parse (source : Source) : ∀ node ∈ source.parse.ast.nodes,
    ∃ parts, node.construct.Takes parts ∧ source.parse.ast.Along parts := by
  obtain ⟨last, ends, -, course⟩ := source.course_parseWith maxNesting
  have tree : source.parse.ast = last.ast := congrArg Parsed.ast ends
  intro node mem
  rw [tree] at mem ⊢
  exact (course.ordered rfl).taken (node.construct, node.token)
    (List.mem_map.2 ⟨node, Array.mem_toList_iff.2 mem, rfl⟩)

/-- **When parts are listed in the order of the source**: the parts of a node of any parse are in the
order in which they were made, and what is below one of them comes before all that is below the next, if
and only if the node is no struct with a field behind a method. -/
theorem children_ascend_iff (source : Source) :
    let ast := source.parse.ast
    ∀ node ∈ ast.nodes,
      (node.construct.children.Pairwise (· < ·) ↔ node.construct.FieldsFirst) ∧
      (node.construct.children.Pairwise ast.Before ↔ node.construct.FieldsFirst) := by
  intro ast node mem
  obtain ⟨parts, takes, along⟩ := source.along_parse node mem
  constructor
  · exact takes.pairwise_children_iff (along.pairwise.imp Ast.Before.lt) fun _ _ less => less
  · exact takes.pairwise_children_iff along.pairwise fun _ _ => Ast.Before.lt

/-- With the fields first, the parts of a struct ascend with all that is below them. -/
theorem children_ascend_fields_first :
    let source : Source := ⟨"s.viper", "struct S \x7b x :: int; proc f(): void \x7b\x7d \x7d"⟩
    let ast := source.parse.ast
    ∃ node ∈ ast.nodes, node.construct = .structDecl "S" [1] [4] ∧
      node.construct.children.Pairwise (· < ·) ∧ node.construct.children.Pairwise ast.Before := by
  intro source ast
  have found : ∃ node ∈ ast.nodes, node.construct = .structDecl "S" [1] [4] := by decide +kernel
  obtain ⟨node, mem, same⟩ := found
  have fieldsFirst : node.construct.FieldsFirst := by
    rw [same]
    simp [Construct.FieldsFirst]
  obtain ⟨parts, trees⟩ := children_ascend_iff source node mem
  exact ⟨node, mem, same, parts.2 fieldsFirst, trees.2 fieldsFirst⟩

/-- A field behind a procedure: it is made last and listed first. -/
theorem children_descend_behind_method :
    let source : Source := ⟨"s.viper", "struct S \x7b proc f(): void \x7b\x7d x :: int; \x7d"⟩
    let ast := source.parse.ast
    source.parse.errors = #[] ∧ ast.children 5 = [4, 2] ∧ ast.reachable = #[5, 4, 3, 2, 0, 1] ∧
      ¬ ∀ id ∈ ast.reachable, (ast.children id).Pairwise (· < ·) := by
  decide +kernel

end Source
end Viper
