/-
# The slots of a construct

A construct refers to its parts by number, and nothing in a number says what the part is.
`Construct.Slots` says what each construct asks of the nodes in its slots: an operand is an
expression, a body is a block, a link of a conditional chain is one that starts with `elif`
or `else`. Where the parser leaves an invalid node for a part it could not read, the slot
takes that too (`Role.orInvalid`); the operands of an operator and the parts of a member
are never invalid.

Key definitions: `Role`, `Ast.Plays`, `Construct.Slots`.
-/
import ViperFrontend.Proofs.Ast.Forest
import ViperFrontend.Token.Precedence

namespace Viper

/-- What a slot asks of the construct in it. -/
abbrev Role := Construct → Bool

/-- The slot may also hold what could not be parsed. -/
def Role.orInvalid (role : Role) : Role := fun construct =>
  role construct || construct = .invalid

namespace Construct

/-- A name without an index. -/
def isPlainName : Role
  | .identifier _ none => true
  | _ => false

/-- A name with what follows it: an index, arguments or a member. -/
def isNamed : Role
  | .identifier .. | .call .. | .member .. => true
  | _ => false

/-- The name of a type. -/
def isDataType : Role
  | .dataType _ => true
  | _ => false

/-- Statements between curly brackets. -/
def isBlock : Role
  | .block _ => true
  | _ => false

/-- An expression as a statement. -/
def isExprStmt : Role
  | .exprStmt _ => true
  | _ => false

/-- A link of a conditional chain that starts with the keyword of `branch`. -/
def isLinkOf (branch : Branch) : Role
  | .conditional b .. => b = branch
  | _ => false

/-- A statement. Of a conditional chain only the first link, an `if`, is one. -/
def isStatement : Role
  | .varDecl .. | .exprStmt _ | .returnStmt _ | .whileLoop .. | .doWhileLoop .. | .forLoop ..
  | .block _ | .conditional .ifBranch .. => true
  | _ => false

/-- What follows the body of an `if` or `elif` in its chain. -/
def isFollowingLink : Role := fun construct =>
  isLinkOf .elifBranch construct || isLinkOf .elseBranch construct

/-- A field of a struct. -/
def isField : Role
  | .structField .. => true
  | _ => false

/-- A procedure. -/
def isProcedure : Role
  | .procDecl .. => true
  | _ => false

/-- A parameter of a procedure. -/
def isParameter : Role
  | .procParameter .. => true
  | _ => false

/-- An item of a file. -/
def isItem : Role
  | .varDecl .. | .structDecl .. | .procDecl .. => true
  | _ => false

end Construct

/-- The prefix operators. -/
def TokenKind.isPrefixOperator : TokenKind → Bool
  | .bang | .dash | .tilde => true
  | _ => false

namespace Ast

/-- There is a node `id`, and it is what the role asks for. -/
def Plays (ast : Ast) (id : NodeId) (role : Role) : Prop :=
  ∃ face, ast.faces[id]? = some face ∧ role face.1 = true

theorem Plays.mono {ast ast' : Ast} (larger : ast.faces <+: ast'.faces) {id : NodeId}
    {role : Role} (h : ast.Plays id role) : ast'.Plays id role := by
  obtain ⟨face, found, plays⟩ := h
  exact ⟨face, getElem?_faces_mono larger found, plays⟩

theorem Plays.imp {ast : Ast} {id : NodeId} {role role' : Role} (h : ast.Plays id role)
    (weaker : ∀ construct, role construct = true → role' construct = true) :
    ast.Plays id role' := by
  obtain ⟨face, found, plays⟩ := h
  exact ⟨face, found, weaker _ plays⟩

/-- A new node is what its construct is. -/
theorem plays_alloc (ast : Ast) {construct : Construct} (token : Token) {role : Role}
    (plays : role construct = true) : (ast.alloc construct token).2.Plays ast.size role :=
  ⟨(construct, token), getElem?_faces_alloc ast construct token, plays⟩

end Ast

open Construct in
/-- Every slot of the construct holds a node of the sort it asks for. -/
def Construct.Slots (ast : Ast) : Construct → Prop
  | .invalid | .integer _ | .float _ | .boolean _ | .string _ => True
  | .procParameter .. | .dataType _ => True
  | .identifier _ index => ∀ id ∈ index, ast.Plays id (Role.orInvalid isExpression)
  | .call _ arguments => ∀ id ∈ arguments, ast.Plays id (Role.orInvalid isExpression)
  | .member object name => ast.Plays object isPlainName ∧ ast.Plays name isNamed
  | .prefixed operator operand =>
    operator.isPrefixOperator = true ∧ ast.Plays operand isExpression
  | .binary left operator right =>
    ast.Plays left isExpression ∧ operator.precedence?.isSome = true ∧
      ast.Plays right isExpression
  | .varDecl _ type value =>
    ast.Plays type (Role.orInvalid isDataType) ∧ ast.Plays value (Role.orInvalid isExpression)
  | .exprStmt expr => ast.Plays expr (Role.orInvalid isExpression)
  | .returnStmt value => ∀ id ∈ value, ast.Plays id (Role.orInvalid isExpression)
  | .conditional branch condition body next =>
    (condition.isSome = true ↔ branch ≠ .elseBranch) ∧
      (∀ id ∈ condition, ast.Plays id (Role.orInvalid isExpression)) ∧
      ast.Plays body (Role.orInvalid isBlock) ∧
      (branch = .elseBranch → next = none) ∧ ∀ id ∈ next, ast.Plays id isFollowingLink
  | .whileLoop condition body =>
    ast.Plays condition (Role.orInvalid isExpression) ∧ ast.Plays body (Role.orInvalid isBlock)
  | .doWhileLoop body condition =>
    ast.Plays body (Role.orInvalid isBlock) ∧ ast.Plays condition (Role.orInvalid isExpression)
  | .forLoop init condition action body =>
    ast.Plays init (Role.orInvalid isStatement) ∧
      ast.Plays condition (Role.orInvalid isExpression) ∧ ast.Plays action isExprStmt ∧
      ast.Plays body (Role.orInvalid isBlock)
  | .block body => ∀ id ∈ body, ast.Plays id (Role.orInvalid isStatement)
  | .structDecl _ fields methods =>
    (∀ id ∈ fields, ast.Plays id isField) ∧ ∀ id ∈ methods, ast.Plays id isProcedure
  | .structField _ type => ast.Plays type (Role.orInvalid isDataType)
  | .procDecl _ parameters type body =>
    (∀ id ∈ parameters, ast.Plays id isParameter) ∧
      ast.Plays type (Role.orInvalid isDataType) ∧ ast.Plays body (Role.orInvalid isBlock)

/-- What fills a slot fills it in every larger tree. -/
theorem Construct.Slots.mono {ast ast' : Ast} (larger : ast.faces <+: ast'.faces)
    {construct : Construct} (h : construct.Slots ast) : construct.Slots ast' := by
  have up : ∀ {id : NodeId} {role : Role}, ast.Plays id role → ast'.Plays id role :=
    fun plays => plays.mono larger
  cases construct with
  | invalid | integer | float | boolean | string | procParameter | dataType => trivial
  | identifier => exact fun id mem => up (h id mem)
  | call => exact fun id mem => up (h id mem)
  | member => exact ⟨up h.1, up h.2⟩
  | prefixed => exact ⟨h.1, up h.2⟩
  | binary => exact ⟨up h.1, h.2.1, up h.2.2⟩
  | varDecl => exact ⟨up h.1, up h.2⟩
  | exprStmt => exact up h
  | returnStmt => exact fun id mem => up (h id mem)
  | conditional =>
    obtain ⟨present, condition, body, last, next⟩ := h
    exact ⟨present, fun id mem => up (condition id mem), up body, last,
      fun id mem => up (next id mem)⟩
  | whileLoop => exact ⟨up h.1, up h.2⟩
  | doWhileLoop => exact ⟨up h.1, up h.2⟩
  | forLoop => exact ⟨up h.1, up h.2.1, up h.2.2.1, up h.2.2.2⟩
  | block => exact fun id mem => up (h id mem)
  | structDecl => exact ⟨fun id mem => up (h.1 id mem), fun id mem => up (h.2 id mem)⟩
  | structField => exact up h
  | procDecl => exact ⟨fun id mem => up (h.1 id mem), up h.2.1, up h.2.2⟩

end Viper
