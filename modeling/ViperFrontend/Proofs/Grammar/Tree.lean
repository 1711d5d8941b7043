/-
# Programs as trees

The nodes of a syntax tree refer to each other by number. Here a program is what those
numbers stand for: a tree of expressions, statements and items, each with a mark that says
what is kept of its token (all of it, or nothing). The sorts of the parts are in the types,
so a body is a block and a chain of conditionals ends with its `else`; only that a member is
a name with what follows it is said apart (`Expr.isNamed`).

`Ast.HoldsExpr`, `Ast.HoldsStmt` and `Ast.HoldsItem` say that the tree at a node is the given
one. Since a number stands for one node, a node holds at most one tree, so the nodes that hold
a program hold no other (`Ast.holdsItems_iff_eq`).

Key definitions: `Program.Expr`, `Program.Stmt`, `Program.ItemDecl`, `Ast.HoldsExpr`, `Ast.HoldsStmt`,
`Ast.HoldsItem`.
Key theorems: `Ast.HoldsExpr.unique`, `Ast.HoldsStmt.unique`, `Ast.HoldsItem.unique`.
-/
import Mathlib.Data.List.Forall2
import ViperFrontend.Proofs.Ast.Forest

namespace Viper
namespace Program

/-- The name of a type. -/
structure TypeRef (τ : Type) where
  mark : τ
  name : String

/-- An expression. -/
inductive Expr (τ : Type) where
  | integer (mark : τ) (value : UInt64)
  | float (mark : τ) (value : Binary64)
  | boolean (mark : τ) (value : Bool)
  | string (mark : τ) (value : String)
  /-- `name` -/
  | name (mark : τ) (name : String)
  /-- `name[index]` -/
  | index (mark : τ) (name : String) (index : Expr τ)
  /-- `callee(argument, ...)` -/
  | call (mark : τ) (callee : String) (arguments : List (Expr τ))
  /-- `object.field`, where the object is a name -/
  | member (mark objectMark : τ) (object : String) (field : Expr τ)
  | prefixed (mark : τ) (operator : TokenKind) (operand : Expr τ)
  | binary (mark : τ) (left : Expr τ) (operator : TokenKind) (right : Expr τ)

/-- A name with what follows it. -/
def Expr.isNamed {τ : Type} : Expr τ → Bool
  | .name .. | .index .. | .call .. | .member .. => true
  | _ => false

/-- `let name: type = value;` -/
structure VarDecl (τ : Type) where
  mark : τ
  name : String
  type : TypeRef τ
  value : Expr τ

mutual
/-- A statement. -/
inductive Stmt (τ : Type) where
  | varDecl (decl : VarDecl τ)
  | expr (mark : τ) (expr : Expr τ)
  | ret (mark : τ) (value : Option (Expr τ))
  | ifElse (mark : τ) (condition : Expr τ) (body : Block τ) (next : Link τ)
  | whileLoop (mark : τ) (condition : Expr τ) (body : Block τ)
  | doWhileLoop (mark : τ) (body : Block τ) (condition : Expr τ)
  | forLoop (mark : τ) (init : Stmt τ) (condition : Expr τ) (actionMark : τ) (action : Expr τ)
      (body : Block τ)
  | block (body : Block τ)

/-- Statements between curly brackets. -/
inductive Block (τ : Type) where
  | mk (mark : τ) (body : List (Stmt τ))

/-- What follows the body of an `if` or `elif`. -/
inductive Link (τ : Type) where
  | done
  | elifLink (mark : τ) (condition : Expr τ) (body : Block τ) (next : Link τ)
  | elseLink (mark : τ) (body : Block τ)
end

/-- `name: type` in the list of a procedure. -/
structure ParamDecl (τ : Type) where
  mark : τ
  name : String
  type : TypeRef τ

/-- `proc name(param, ...): type body` -/
structure ProcDecl (τ : Type) where
  mark : τ
  name : String
  params : List (ParamDecl τ)
  type : TypeRef τ
  body : Block τ

/-- `name :: type;` in a struct. -/
structure FieldDecl (τ : Type) where
  mark : τ
  name : String
  type : TypeRef τ

/-- An item of a file. -/
inductive ItemDecl (τ : Type) where
  | varDecl (decl : VarDecl τ)
  | struct (mark : τ) (name : String) (fields : List (FieldDecl τ)) (methods : List (ProcDecl τ))
  | proc (proc : ProcDecl τ)

end Program

open Program

namespace Ast

variable {τ : Type} (view : Token → τ) (ast : Ast)

/-- Node `id` is the construct, and the mark is what the view keeps of its token. -/
def Shows (id : NodeId) (construct : Construct) (mark : τ) : Prop :=
  ∃ token, ast.faces[id]? = some (construct, token) ∧ view token = mark

/-- The type at a node. -/
def HoldsType (id : NodeId) (type : TypeRef τ) : Prop :=
  ast.Shows view id (.dataType type.name) type.mark

/-- The expression at a node. -/
inductive HoldsExpr : NodeId → Expr τ → Prop
  | integer {id value mark} : ast.Shows view id (.integer value) mark →
      HoldsExpr id (.integer mark value)
  | float {id value mark} : ast.Shows view id (.float value) mark →
      HoldsExpr id (.float mark value)
  | boolean {id value mark} : ast.Shows view id (.boolean value) mark →
      HoldsExpr id (.boolean mark value)
  | string {id value mark} : ast.Shows view id (.string value) mark →
      HoldsExpr id (.string mark value)
  | name {id name mark} : ast.Shows view id (.identifier name none) mark →
      HoldsExpr id (.name mark name)
  | index {id name i mark e} : ast.Shows view id (.identifier name (some i)) mark →
      HoldsExpr i e → HoldsExpr id (.index mark name e)
  | call {id callee ids mark es} : ast.Shows view id (.call callee ids) mark →
      List.Forall₂ HoldsExpr ids es → HoldsExpr id (.call mark callee es)
  | member {id o f mark objectMark object e} : ast.Shows view id (.member o f) mark →
      ast.Shows view o (.identifier object none) objectMark → HoldsExpr f e →
      HoldsExpr id (.member mark objectMark object e)
  | prefixed {id operator i mark e} : ast.Shows view id (.prefixed operator i) mark →
      HoldsExpr i e → HoldsExpr id (.prefixed mark operator e)
  | binary {id l operator r mark left right} : ast.Shows view id (.binary l operator r) mark →
      HoldsExpr l left → HoldsExpr r right → HoldsExpr id (.binary mark left operator right)

/-- The declaration at a node. -/
def HoldsVarDecl (id : NodeId) (decl : VarDecl τ) : Prop :=
  ∃ type value, ast.Shows view id (.varDecl decl.name type value) decl.mark ∧
    ast.HoldsType view type decl.type ∧ ast.HoldsExpr view value decl.value

mutual
/-- The statement at a node. -/
inductive HoldsStmt : NodeId → Stmt τ → Prop
  | varDecl {id decl} : ast.HoldsVarDecl view id decl → HoldsStmt id (.varDecl decl)
  | expr {id i mark e} : ast.Shows view id (.exprStmt i) mark → ast.HoldsExpr view i e →
      HoldsStmt id (.expr mark e)
  | ret {id mark} : ast.Shows view id (.returnStmt none) mark → HoldsStmt id (.ret mark none)
  | retValue {id i mark e} : ast.Shows view id (.returnStmt (some i)) mark →
      ast.HoldsExpr view i e → HoldsStmt id (.ret mark (some e))
  | ifElse {id c b n mark condition body next} :
      ast.Shows view id (.conditional .ifBranch (some c) b n) mark →
      ast.HoldsExpr view c condition → HoldsBlock b body → HoldsLink n next →
      HoldsStmt id (.ifElse mark condition body next)
  | whileLoop {id c b mark condition body} : ast.Shows view id (.whileLoop c b) mark →
      ast.HoldsExpr view c condition → HoldsBlock b body →
      HoldsStmt id (.whileLoop mark condition body)
  | doWhileLoop {id c b mark condition body} : ast.Shows view id (.doWhileLoop b c) mark →
      HoldsBlock b body → ast.HoldsExpr view c condition →
      HoldsStmt id (.doWhileLoop mark body condition)
  | forLoop {id i c a x b mark init condition actionMark action body} :
      ast.Shows view id (.forLoop i c a b) mark → HoldsStmt i init →
      ast.HoldsExpr view c condition → ast.Shows view a (.exprStmt x) actionMark →
      ast.HoldsExpr view x action → HoldsBlock b body →
      HoldsStmt id (.forLoop mark init condition actionMark action body)
  | block {id body} : HoldsBlock id body → HoldsStmt id (.block body)

/-- The block at a node. -/
inductive HoldsBlock : NodeId → Block τ → Prop
  | mk {id ids mark body} : ast.Shows view id (.block ids) mark →
      List.Forall₂ HoldsStmt ids body → HoldsBlock id (.mk mark body)

/-- The rest of a conditional chain from a link on. -/
inductive HoldsLink : Option NodeId → Link τ → Prop
  | done : HoldsLink none .done
  | elifLink {id c b n mark condition body next} :
      ast.Shows view id (.conditional .elifBranch (some c) b n) mark →
      ast.HoldsExpr view c condition → HoldsBlock b body → HoldsLink n next →
      HoldsLink (some id) (.elifLink mark condition body next)
  | elseLink {id b mark body} : ast.Shows view id (.conditional .elseBranch none b none) mark →
      HoldsBlock b body → HoldsLink (some id) (.elseLink mark body)
end

/-- The parameter at a node. The node keeps the token of its type. -/
def HoldsParam (id : NodeId) (param : ParamDecl τ) : Prop :=
  ∃ type, ast.Shows view id (.procParameter param.name type) param.mark ∧
    type.text = param.type.name ∧ view type = param.type.mark

/-- The procedure at a node. -/
def HoldsProc (id : NodeId) (proc : ProcDecl τ) : Prop :=
  ∃ params type body, ast.Shows view id (.procDecl proc.name params type body) proc.mark ∧
    List.Forall₂ (ast.HoldsParam view) params proc.params ∧
    ast.HoldsType view type proc.type ∧ ast.HoldsBlock view body proc.body

/-- The field at a node. -/
def HoldsField (id : NodeId) (field : FieldDecl τ) : Prop :=
  ∃ type, ast.Shows view id (.structField field.name type) field.mark ∧
    ast.HoldsType view type field.type

/-- The item at a node. -/
inductive HoldsItem : NodeId → ItemDecl τ → Prop
  | varDecl {id decl} : ast.HoldsVarDecl view id decl → HoldsItem id (.varDecl decl)
  | struct {id fs ms mark name fields methods} :
      ast.Shows view id (.structDecl name fs ms) mark →
      List.Forall₂ (ast.HoldsField view) fs fields → List.Forall₂ (ast.HoldsProc view) ms methods →
      HoldsItem id (.struct mark name fields methods)
  | proc {id proc} : ast.HoldsProc view id proc → HoldsItem id (.proc proc)

/-! ### A node holds at most one tree -/

variable {view ast} {id : NodeId}

@[grind →]
theorem Shows.unique {construct construct' : Construct} {mark mark' : τ}
    (h : ast.Shows view id construct mark) (h' : ast.Shows view id construct' mark') :
    construct = construct' ∧ mark = mark' := by
  obtain ⟨token, found, rfl⟩ := h
  obtain ⟨token', found', rfl⟩ := h'
  cases found.symm.trans found'
  exact ⟨rfl, rfl⟩

/-- Nodes hold one list of trees if each tree of it is the only one at its node. -/
theorem forall₂_unique {κ : Type} {holds : NodeId → κ → Prop} :
    ∀ {ids : List NodeId} {xs ys : List κ},
    List.Forall₂ holds ids xs → List.Forall₂ holds ids ys →
    (∀ x ∈ xs, ∀ id y, holds id x → holds id y → x = y) → xs = ys
  | [], [], [], .nil, .nil, _ => rfl
  | _ :: _, x :: xs, y :: ys, .cons held others, .cons held' others', unique => by
    obtain rfl : x = y := unique x (by simp) _ y held held'
    rw [forall₂_unique others others' fun x mem => unique x (List.mem_cons_of_mem _ mem)]

theorem HoldsType.unique {type type' : TypeRef τ} (h : ast.HoldsType view id type)
    (h' : ast.HoldsType view id type') : type = type' := by
  obtain ⟨name, mark⟩ := type
  obtain ⟨⟨⟩, rfl⟩ := Shows.unique h h'
  rfl

theorem HoldsExpr.unique (e : Expr τ) {e' : Expr τ} {id : NodeId} (h : ast.HoldsExpr view id e)
    (h' : ast.HoldsExpr view id e') : e = e' := by
  cases h with
  | integer shown | float shown | boolean shown | string shown | name shown =>
    cases h' <;> obtain ⟨⟨⟩, rfl⟩ := shown.unique ‹_›
    rfl
  | index shown held =>
    cases h' <;> obtain ⟨⟨⟩, rfl⟩ := shown.unique ‹_›
    rw [HoldsExpr.unique _ held ‹_›]
  | call shown held =>
    cases h' <;> obtain ⟨⟨⟩, rfl⟩ := shown.unique ‹_›
    rw [forall₂_unique held ‹_› fun e mem _ _ => HoldsExpr.unique e]
  | member shown object held =>
    cases h' <;> obtain ⟨⟨⟩, rfl⟩ := shown.unique ‹_›
    obtain ⟨⟨⟩, rfl⟩ := object.unique ‹_›
    rw [HoldsExpr.unique _ held ‹_›]
  | prefixed shown held =>
    cases h' <;> obtain ⟨⟨⟩, rfl⟩ := shown.unique ‹_›
    rw [HoldsExpr.unique _ held ‹_›]
  | binary shown left right =>
    cases h' <;> obtain ⟨⟨⟩, rfl⟩ := shown.unique ‹_›
    rw [HoldsExpr.unique _ left ‹_›, HoldsExpr.unique _ right ‹_›]
termination_by sizeOf e

theorem HoldsVarDecl.unique {decl decl' : VarDecl τ} (h : ast.HoldsVarDecl view id decl)
    (h' : ast.HoldsVarDecl view id decl') : decl = decl' := by
  obtain ⟨type, value, shown, heldType, heldValue⟩ := h
  obtain ⟨type', value', shown', heldType', heldValue'⟩ := h'
  obtain ⟨mark, name, t, v⟩ := decl
  obtain ⟨⟨⟩, rfl⟩ := shown.unique shown'
  obtain rfl := heldType.unique heldType'
  obtain rfl := HoldsExpr.unique _ heldValue heldValue'
  rfl

@[grind →]
theorem HoldsVarDecl.shows {decl : VarDecl τ} (h : ast.HoldsVarDecl view id decl) :
    ∃ type value, ast.Shows view id (.varDecl decl.name type value) decl.mark := by
  obtain ⟨type, value, shown, -⟩ := h
  exact ⟨type, value, shown⟩

@[grind →]
theorem HoldsBlock.shows {block : Block τ} (h : ast.HoldsBlock view id block) :
    ∃ ids mark, ast.Shows view id (.block ids) mark := by
  cases h with
  | mk shown => exact ⟨_, _, shown⟩

mutual
theorem HoldsStmt.unique (stmt : Stmt τ) {stmt' : Stmt τ} {id : NodeId}
    (h : ast.HoldsStmt view id stmt) (h' : ast.HoldsStmt view id stmt') : stmt = stmt' := by
  -- Trees of two different forms would be two constructs at one node.
  cases h with
  | varDecl held =>
    cases h' with
    | varDecl held' => rw [held.unique held']
    | _ => grind
  | expr shown held =>
    cases h' with
    | expr shown' held' =>
      obtain ⟨⟨⟩, rfl⟩ := shown.unique shown'
      rw [HoldsExpr.unique _ held held']
    | _ => grind
  | ret shown =>
    cases h' with
    | ret shown' =>
      obtain ⟨-, rfl⟩ := shown.unique shown'
      rfl
    | _ => grind
  | retValue shown held =>
    cases h' with
    | retValue shown' held' =>
      obtain ⟨⟨⟩, rfl⟩ := shown.unique shown'
      rw [HoldsExpr.unique _ held held']
    | _ => grind
  | ifElse shown condition body next =>
    cases h' with
    | ifElse shown' condition' body' next' =>
      obtain ⟨⟨⟩, rfl⟩ := shown.unique shown'
      rw [HoldsExpr.unique _ condition condition', HoldsBlock.unique _ body body',
        HoldsLink.unique _ next next']
    | _ => grind
  | whileLoop shown condition body =>
    cases h' with
    | whileLoop shown' condition' body' =>
      obtain ⟨⟨⟩, rfl⟩ := shown.unique shown'
      rw [HoldsExpr.unique _ condition condition', HoldsBlock.unique _ body body']
    | _ => grind
  | doWhileLoop shown body condition =>
    cases h' with
    | doWhileLoop shown' body' condition' =>
      obtain ⟨⟨⟩, rfl⟩ := shown.unique shown'
      rw [HoldsBlock.unique _ body body', HoldsExpr.unique _ condition condition']
    | _ => grind
  | forLoop shown init condition shownAction action body =>
    cases h' with
    | forLoop shown' init' condition' shownAction' action' body' =>
      obtain ⟨⟨⟩, rfl⟩ := shown.unique shown'
      obtain ⟨⟨⟩, rfl⟩ := shownAction.unique shownAction'
      rw [HoldsStmt.unique _ init init', HoldsExpr.unique _ condition condition',
        HoldsExpr.unique _ action action', HoldsBlock.unique _ body body']
    | _ => grind
  | block body =>
    cases h' with
    | block body' => rw [HoldsBlock.unique _ body body']
    | _ => grind
termination_by sizeOf stmt

theorem HoldsBlock.unique (block : Block τ) {block' : Block τ} {id : NodeId}
    (h : ast.HoldsBlock view id block) (h' : ast.HoldsBlock view id block') : block = block' := by
  cases h with
  | mk shown held =>
    cases h' with
    | mk shown' held' =>
      obtain ⟨⟨⟩, rfl⟩ := shown.unique shown'
      rw [forall₂_unique held held' fun stmt mem _ _ => HoldsStmt.unique stmt]
termination_by sizeOf block

theorem HoldsLink.unique (link : Link τ) {link' : Link τ} {n : Option NodeId}
    (h : ast.HoldsLink view n link) (h' : ast.HoldsLink view n link') : link = link' := by
  cases h with
  | done =>
    cases h'
    rfl
  | elifLink shown condition body next =>
    cases h' <;> obtain ⟨⟨⟩, rfl⟩ := shown.unique ‹_›
    rw [HoldsExpr.unique _ condition ‹_›, HoldsBlock.unique _ body ‹_›, HoldsLink.unique _ next ‹_›]
  | elseLink shown body =>
    cases h' <;> obtain ⟨⟨⟩, rfl⟩ := shown.unique ‹_›
    rw [HoldsBlock.unique _ body ‹_›]
termination_by sizeOf link
end

theorem HoldsParam.unique {param param' : ParamDecl τ} (h : ast.HoldsParam view id param)
    (h' : ast.HoldsParam view id param') : param = param' := by
  obtain ⟨mark, name, typeMark, typeName⟩ := param
  obtain ⟨token, shown, rfl, rfl⟩ := h
  obtain ⟨mark', name', typeMark', typeName'⟩ := param'
  obtain ⟨token', shown', rfl, rfl⟩ := h'
  obtain ⟨⟨⟩, rfl⟩ := shown.unique shown'
  rfl

theorem HoldsProc.unique {proc proc' : ProcDecl τ} (h : ast.HoldsProc view id proc)
    (h' : ast.HoldsProc view id proc') : proc = proc' := by
  obtain ⟨mark, name, params, type, body⟩ := proc
  obtain ⟨ps, t, b, shown, heldParams, heldType, heldBody⟩ := h
  obtain ⟨mark', name', params', type', body'⟩ := proc'
  obtain ⟨ps', t', b', shown', heldParams', heldType', heldBody'⟩ := h'
  obtain ⟨⟨⟩, rfl⟩ := shown.unique shown'
  obtain rfl : params = params' :=
    forall₂_unique heldParams heldParams' fun _ _ _ _ => HoldsParam.unique
  obtain rfl : type = type' := heldType.unique heldType'
  obtain rfl : body = body' := HoldsBlock.unique _ heldBody heldBody'
  rfl

theorem HoldsField.unique {field field' : FieldDecl τ} (h : ast.HoldsField view id field)
    (h' : ast.HoldsField view id field') : field = field' := by
  obtain ⟨mark, name, type⟩ := field
  obtain ⟨t, shown, held⟩ := h
  obtain ⟨mark', name', type'⟩ := field'
  obtain ⟨t', shown', held'⟩ := h'
  obtain ⟨⟨⟩, rfl⟩ := shown.unique shown'
  obtain rfl : type = type' := held.unique held'
  rfl

@[grind →]
theorem HoldsProc.shows {proc : ProcDecl τ} (h : ast.HoldsProc view id proc) :
    ∃ params type body, ast.Shows view id (.procDecl proc.name params type body) proc.mark := by
  obtain ⟨params, type, body, shown, -⟩ := h
  exact ⟨params, type, body, shown⟩

/-- **A node holds at most one item.** -/
theorem HoldsItem.unique {item item' : ItemDecl τ} (h : ast.HoldsItem view id item)
    (h' : ast.HoldsItem view id item') : item = item' := by
  cases h with
  | varDecl held =>
    cases h' with
    | varDecl held' => rw [held.unique held']
    | _ => grind
  | struct shown fields methods =>
    cases h' with
    | struct shown' fields' methods' =>
      obtain ⟨⟨⟩, rfl⟩ := shown.unique shown'
      rw [forall₂_unique fields fields' fun _ _ _ _ => HoldsField.unique,
        forall₂_unique methods methods' fun _ _ _ _ => HoldsProc.unique]
    | _ => grind
  | proc held =>
    cases h' with
    | proc held' => rw [held.unique held']
    | _ => grind

theorem holdsItems_iff_eq {ids : List NodeId} {items items' : List (ItemDecl τ)}
    (h : List.Forall₂ (ast.HoldsItem view) ids items) :
    List.Forall₂ (ast.HoldsItem view) ids items' ↔ items' = items := by
  constructor
  · exact fun h' => forall₂_unique h' h fun _ _ _ _ => HoldsItem.unique
  · rintro rfl
    exact h

end Ast
end Viper
