/-
# Parsers only append

A parse puts what it makes behind what was there. Diagnostics and nodes are only added at the end, and
no node gets another construct or token. But a node that is made becomes the parent of its parts, and an
item is handed over to the file; so whether older nodes keep their parents, and the file its items,
depends on which nodes a parser puts into a construct or hands over. They are those it has in hand, and
these are its own (`State.Course.appended`).

The one parser that is given a node is that of an operator, which takes it for its left operand. It puts
the node into its construct only at the end, when nothing can fail any more; so that node gets a new parent
if the parser succeeds, and keeps the one it had otherwise (`Expression.ensures_binary`). No other node of
before has another parent after a call, and the items of the file stay as they are, but for those that
the parser of a whole file adds. All this is so from every state and at every depth of nesting, and the
depth is the same after the call as before it (`Machine.calls_only_append`).

Key definitions: `Ast.MadeSince`, `Ast.Appended`, `Rule.left?`, `Machine.Appends`.
Key theorems: `Parser.State.Course.appended`, `Expression.ensures_binary`, `Machine.calls_only_append`.
-/
import ViperFrontend.Proofs.Parser.Counter
import ViperFrontend.Proofs.Parser.Levels

namespace Viper

open Viper.Parser

namespace Ast

/-- The node was made after the tree was `before`. -/
def MadeSince (before after : Ast) (id : NodeId) : Prop :=
  before.size ≤ id ∧ id < after.size

/-- What a parse with the nodes `hand` in hand has done to a tree: they are its own, and so are the items
it has added. The nodes of before have the parents of before. -/
structure Appended (before after : Ast) (hand : List NodeId) : Prop where
  size_le : before.size ≤ after.size
  inHand : ∀ id ∈ hand, before.MadeSince after id
  parent_eq : ∀ id < before.size, after.parent id = before.parent id
  roots_extend : ∃ items : List NodeId, after.roots.toList = before.roots.toList ++ items ∧
    ∀ root ∈ items, before.MadeSince after root

variable {before after : Ast} {id : NodeId}

theorem MadeSince.alloc (h : before.MadeSince after id) (construct : Construct) (token : Token) :
    before.MadeSince (after.alloc construct token).2 id := by
  refine ⟨h.1, ?_⟩
  rw [size_alloc]
  exact Nat.lt_succ_of_lt h.2

theorem madeSince_alloc (le : before.size ≤ after.size) (construct : Construct) (token : Token) :
    before.MadeSince (after.alloc construct token).2 after.size := by
  refine ⟨le, ?_⟩
  rw [size_alloc]
  exact Nat.lt_succ_self _

namespace Appended

theorem refl (ast : Ast) : ast.Appended ast [] where
  size_le := Nat.le_refl _
  inHand := nofun
  parent_eq _ _ := rfl
  roots_extend := ⟨[], (List.append_nil _).symm, nofun⟩

/-- What is in hand may be thrown away. -/
theorem drop {kept lost : List NodeId} (h : before.Appended after (kept ++ lost)) :
    before.Appended after kept :=
  { h with inHand := fun id mem => h.inHand id (List.mem_append_left lost mem) }

/-- A construct over nodes in hand has no node of before among its parts. -/
theorem alloc {kept used : List NodeId} {construct : Construct} (token : Token)
    (h : before.Appended after (kept ++ used)) (parts : construct.children.Perm used) :
    before.Appended (after.alloc construct token).2 (kept ++ [after.size]) where
  size_le := by
    rw [size_alloc]
    exact Nat.le_succ_of_le h.size_le
  inHand id mem := by
    rcases List.mem_append.1 mem with older | newest
    · exact (h.inHand id (List.mem_append_left used older)).alloc construct token
    · rw [List.mem_singleton.1 newest]
      exact madeSince_alloc h.size_le construct token
  parent_eq id old := by
    rw [parent_alloc, if_neg, h.parent_eq id old]
    rintro ⟨part, -⟩
    have new := h.inHand id (List.mem_append_right kept (parts.mem_iff.1 part))
    exact Nat.not_lt_of_le new.1 old
  roots_extend := by
    obtain ⟨items, roots, new⟩ := h.roots_extend
    exact ⟨items, roots, fun root mem => (new root mem).alloc construct token⟩

/-- An item that is handed over is no longer in hand. -/
theorem pushRoot (h : before.Appended after [id]) : before.Appended (after.pushRoot id) [] where
  size_le := h.size_le
  inHand := nofun
  parent_eq := h.parent_eq
  roots_extend := by
    obtain ⟨items, roots, new⟩ := h.roots_extend
    refine ⟨items ++ [id], ?_, List.forall_mem_append.2 ⟨new, h.inHand⟩⟩
    rw [← List.append_assoc, ← roots]
    exact Array.toList_push

end Appended
end Ast

/-- **On its course a parse only appends.** -/
theorem Parser.State.Course.appended {origin t : State} {hand : List (NodeId × Nat)}
    (h : origin.Course t hand) : origin.ast.Appended t.ast (hand.map (·.1)) := by
  induction h with
  | start => exact .refl _
  | advance _ ih => rwa [ast_advance]
  | record n _ _ ih => rwa [ast_record, ast_iterate_advance]
  | alloc token _ _ parts _ ih =>
    rw [List.map_append] at ih ⊢
    exact ih.alloc token parts.perm
  | @recover _ t _ _ _ _ _ _ _ ih =>
    rw [List.map_append] at ih ⊢
    have kept := ih.drop
    rw [← List.append_nil (List.map _ _)] at kept
    exact kept.alloc t.current (.refl _)
  | widen _ _ ih => simpa using ih
  | pushRoot _ ih => exact ih.pushRoot

/-! ### What the parser of a construct keeps -/

namespace Rule

/-- The node that the parser is given. -/
def left? : Rule → Option NodeId
  | .exprBinary left _ => some left
  | _ => none

/-- What the parser of a construct keeps of a tree. The items stay, and so do the parents of all nodes but
the one that it is given; that one gets the new node for its parent, if there is one. -/
structure Keeps (rule : Rule) (before : Ast) (result : Except SyntaxError NodeId) (after : Ast) :
    Prop where
  roots_eq : after.roots = before.roots
  parent_eq : ∀ id < before.size, rule.left? ≠ some id → after.parent id = before.parent id
  parent_left : ∀ left < before.size, rule.left? = some left →
    after.parent left = match result with
      | .ok id => some id
      | .error _ => before.parent left
  new : ∀ id, result = .ok id → before.MadeSince after id

variable {rule : Rule} {inner : Statement.Inner} {h : Nat} {s t : State}

/-- Up to its end a parse takes only nodes that are its own, so one that fails has touched no other. -/
theorem keeps_of_error {e : SyntaxError} {hand : List (NodeId × Nat)} (stage : s.Stage s.ast.roots t hand) :
    rule.Keeps s.ast (.error e) t.ast where
  roots_eq := stage.items_eq
  parent_eq id old _ := stage.course.appended.parent_eq id old
  parent_left left old _ := stage.course.appended.parent_eq left old
  new := nofun

theorem ensures_of_trades (given : rule.left? = none) {depth : Nat}
    (traded : (rule.parser inner).Trades s [] fun id => [(id, depth)]) :
    (rule.parser inner).Ensures s (fun id t => rule.Keeps s.ast (.ok id) t.ast)
      fun e t => rule.Keeps s.ast (.error e) t.ast := by
  refine Attempt.Ensures.imp (traded s s.ast.roots [] ⟨.start, rfl⟩) (fun id t _ stage => ?_) ?_
  · have appended := stage.course.appended
    refine ⟨stage.items_eq, fun id old _ => appended.parent_eq id old, ?_, ?_⟩
    · intro left _ same
      rw [given] at same
      cases same
    · rintro _ ⟨rfl⟩
      exact appended.inHand id (List.mem_singleton_self id)
  · rintro e t - ⟨-, lost, stage⟩
    exact keeps_of_error stage

/-- A construct over the given node and a new one. -/
theorem keeps_of_binary {left right : NodeId} {p : Precedence} {depth : Nat}
    (stage : s.Stage s.ast.roots t [(right, depth)]) (operator : TokenKind) (token : Token) :
    (exprBinary left p).Keeps s.ast (.ok t.ast.size)
      (t.ast.alloc (.binary left operator right) token).2 := by
  have appended := stage.course.appended
  refine ⟨stage.items_eq, fun id old other => ?_, ?_, ?_⟩
  · rw [Ast.parent_alloc, if_neg, appended.parent_eq id old]
    rintro ⟨part, -⟩
    rcases List.mem_cons.1 part with rfl | isRight
    · exact other rfl
    · have new := appended.inHand id isRight
      exact Nat.not_lt_of_le new.1 old
  · rintro left old ⟨rfl⟩
    have present : left < t.ast.size := Nat.lt_of_lt_of_le old appended.size_le
    rw [Ast.parent_alloc, if_pos ⟨List.mem_cons_self, Nat.le_of_lt present⟩]
  · rintro _ ⟨rfl⟩
    exact Ast.madeSince_alloc appended.size_le _ token

/-- An operator puts its left operand into its construct when everything else is done. Before that, what is
in hand is new. -/
theorem ensures_exprBinary (level : inner.Trades h) (left : NodeId) (p : Precedence) :
    ((exprBinary left p).parser inner).Ensures s
      (fun id t => (exprBinary left p).Keeps s.ast (.ok id) t.ast)
      fun e t => (exprBinary left p).Keeps s.ast (.error e) t.ast := by
  have failed : ∀ (t : State) e u, t.Reaches u →
      (s.Raised e u ∧ ∃ lost, s.Stage s.ast.roots u ([] ++ lost)) →
      (exprBinary left p).Keeps s.ast (.error e) u.ast := by
    rintro _ e u - ⟨-, lost, stage⟩
    exact keeps_of_error stage
  have passed : (liftM advance : Attempt Token).Ensures s (fun _ t => s.Stage s.ast.roots t [])
      fun _ _ => False := State.Stage.advance ⟨.start, rfl⟩
  refine passed.bind (fun operator t _ stage => ?_) fun _ _ _ => False.elim
  refine (level.exprs.primary t s _ [] stage).bind (fun operand t _ stage => ?_) (failed t)
  refine Attempt.Ensures.bind (Attempt.Trades.foldWhile (fun right : NodeId => [(right, h)])
    (fun next right t _ => level.exprs.binary t right next) operand s _ [] stage) ?_ (failed t)
  intro right t _ stage
  exact Attempt.ensures_lift (keeps_of_binary stage operator.kind operator)

/-- Every parser that is given no node takes its course with nothing in hand. -/
theorem exists_trades (level : inner.Trades h) (given : rule.left? = none) (s : State) :
    ∃ depth, (rule.parser inner).Trades s [] fun id => [(id, depth)] := by
  cases rule with
  | exprBinary => cases given
  | expr => exact ⟨_, Expression.trades_parse level.exprs⟩
  | exprOrInvalid => exact ⟨_, Attempt.trades_lift (Expression.trades_parseOrInvalid level.exprs)⟩
  | exprPrimary => exact ⟨_, Expression.trades_primary level.exprs⟩
  | exprPrefixed => exact ⟨_, Expression.trades_prefixed level.exprs⟩
  | exprGrouping => exact ⟨_, Expression.trades_grouping level.exprs⟩
  | exprIdentifier => exact ⟨_, Expression.trades_identifier level.exprs⟩
  | exprCall => exact ⟨_, Attempt.trades_lift (Expression.trades_call level.exprs)⟩
  | stmt => exact ⟨_, Statement.trades_parse level⟩
  | exprStmt => exact ⟨_, Attempt.trades_lift (Statement.trades_expression level)⟩
  | varDecl => exact ⟨_, Attempt.trades_lift (Statement.trades_varDecl level)⟩
  | returnStmt => exact ⟨_, Attempt.trades_lift (Statement.trades_returnStmt level)⟩
  | ifStmt => exact ⟨_, Statement.trades_conditional level .ifBranch⟩
  | danglingClause => exact ⟨0, Statement.trades_dangling level⟩
  | whileLoop => exact ⟨_, Attempt.trades_lift (Statement.trades_whileLoop level)⟩
  | doWhileLoop => exact ⟨_, Attempt.trades_lift (Statement.trades_doWhileLoop level)⟩
  | forLoop => exact ⟨_, Attempt.trades_lift (Statement.trades_forLoop level s)⟩
  | block => exact ⟨_, Statement.trades_block level⟩
  | struct => exact ⟨_, Attempt.trades_lift (Item.trades_struct level)⟩
  | procedure => exact ⟨_, Attempt.trades_lift (Item.trades_procedure level)⟩
  | dataType => exact ⟨_, DataType.trades_parse⟩
  | dataTypeOrInvalid => exact ⟨_, Attempt.trades_lift DataType.trades_parseOrInvalid⟩

theorem ensures_keeps (level : inner.Trades h) (rule : Rule) (s : State) :
    (rule.parser inner).Ensures s (fun id t => rule.Keeps s.ast (.ok id) t.ast)
      fun e t => rule.Keeps s.ast (.error e) t.ast := by
  cases given : rule.left? with
  | none =>
    obtain ⟨depth, traded⟩ := exists_trades level given s
    exact ensures_of_trades given traded
  | some left =>
    cases rule <;> cases given
    exact ensures_exprBinary level left _

theorem keeps_exec (rule : Rule) (m : Machine) :
    rule.Keeps m.state.ast (rule.exec m).1 (rule.exec m).2.state.ast := by
  have level := Statement.trades_ofRoom (Nat.le_refl (2 * m.room))
  have kept : (rule.parser (Statement.Inner.ofRoom m.room)).run.Ensures m.state fun result t =>
    rule.Keeps m.state.ast result t.ast := (ensures_keeps level rule m.state).outcome
  rw [rule.exec_eq]
  exact kept

end Rule

/-! ### Calls of parsers -/

/-- After a call the depth is that of before, and diagnostics and nodes are only added at the end: those of
before are the first ones still, and no node of before has another construct or token. -/
structure Machine.Appends (before after : Machine) : Prop where
  depth_eq : after.depth = before.depth
  errors_extend : before.state.errors.toList <+: after.state.errors.toList
  faces_extend : before.state.ast.faces <+: after.state.ast.faces

theorem Session.appends {α : Type} (session : Session α) (m : Machine) :
    m.Appends (session.exec m).2 where
  depth_eq := session.depth_exec m
  errors_extend := (session.reaches_exec m).errors_extend
  faces_extend := (session.reaches_exec m).faces_extend

theorem DataType.ast_token (s : State) : (token.run.run s).2.ast = s.ast := by
  have kept : token.run.Ensures s fun _ t => t.ast = s.ast := by
    refine Attempt.Ensures.outcome ((ensures_token s).imp ?_ ?_)
    · rintro _ _ - rfl
      exact State.ast_advance s
    · rintro _ _ - ⟨rfl, -⟩
      rfl
  exact kept

theorem Item.appended_program (m : Machine) :
    m.state.ast.Appended (Session.program.exec m).2.state.ast [] := by
  have level : (Statement.Inner.ofRoom m.room).Trades (2 * m.state.limit) :=
    Statement.trades_ofRoom (Nat.mul_le_mul_left 2 (Nat.sub_le _ _))
  exact State.Course.appended (course_program level)

/-- **Parsers only append.** Whatever the state and the depth when a parser is called, whether it succeeds or
fails: the depth is the same afterwards, and diagnostics and nodes are added behind those of before. The
parser of a construct leaves the items of the file as they are and the parents of the nodes of before too,
but for the left operand that the parser of an operator is given; and the node that it gives is new. The
parser of a type's token does not touch the tree, and that of a whole file adds items that are new nodes. -/
theorem Machine.calls_only_append (m : Machine) :
    (∀ rule : Rule,
      let done := rule.exec m;
      m.Appends done.2 ∧ rule.Keeps m.state.ast done.1 done.2.state.ast) ∧
    (let done := m.count DataType.token.run;
      m.Appends done.2 ∧ done.2.state.ast = m.state.ast) ∧
    (let done := m.count (Item.program m.levels);
      m.Appends done.2 ∧ m.state.ast.Appended done.2.state.ast []) := by
  refine ⟨fun rule => ⟨?_, rule.keeps_exec m⟩, ?_, ?_⟩
  · rw [rule.exec_eq]
    exact Session.appends _ m
  · rw [m.count_dataTypeToken]
    exact ⟨Session.appends _ m, DataType.ast_token m.state⟩
  · rw [m.count_program]
    exact ⟨Session.appends _ m, Item.appended_program m⟩

/-- Of an operator with room for its right operand the left one gets a parent, of one without it does not. -/
example :
    let operand : Node := ⟨.identifier "a" none, ⟨.identifier, "a", 1⟩, none⟩
    let state : State := { State.start 4 ⟨"f.viper", "+ b"⟩ with ast := ⟨#[operand], #[]⟩ }
    let call (depth : Nat) := (Rule.exprBinary 0 .additive).exec ⟨state, depth⟩
    ((call 3).1 = .ok 2 ∧ (call 3).2.state.ast.parent 0 = some 2) ∧
      (call 4).1 = .error ⟨.nestingTooDeep 4, 1⟩ ∧ (call 4).2.state.ast.parent 0 = none := by
  decide +kernel

end Viper
