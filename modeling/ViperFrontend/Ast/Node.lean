/-
# Nodes of the syntax tree

A node is one construct of the language, the token it starts at and the node that has it
as a child. Constructs refer to their parts by number: every node has a number in its tree,
and the parts of a construct have smaller ones.

Key definitions: `Construct`, `Construct.children`, `Node`.
-/
import ViperFrontend.Number.Binary64
import ViperFrontend.Token.Basic

namespace Viper

/-- The number of a node in its tree. -/
abbrev NodeId := Nat

/-- The keyword that starts a link of a conditional chain. -/
inductive Branch where
  | ifBranch | elifBranch | elseBranch
deriving DecidableEq, Repr, Inhabited

/-- A construct of the language. `invalid` stands where a construct could not be parsed, so
that every part of the construct around it is there. -/
inductive Construct where
  | invalid
  /-- an integer literal -/
  | integer (value : UInt64)
  /-- a float literal -/
  | float (value : Binary64)
  /-- `true` or `false` -/
  | boolean (value : Bool)
  /-- a string literal -/
  | string (value : String)
  /-- `name` or `name[index]` -/
  | identifier (name : String) (index : Option NodeId)
  /-- `callee(argument, ...)` -/
  | call (callee : String) (arguments : List NodeId)
  /-- `object.member` -/
  | member (object name : NodeId)
  /-- an operator before its operand -/
  | prefixed (operator : TokenKind) (operand : NodeId)
  /-- an operator between its operands; assignments are operators too -/
  | binary (left : NodeId) (operator : TokenKind) (right : NodeId)
  /-- `let name: type = value;` -/
  | varDecl (name : String) (type value : NodeId)
  /-- an expression as a statement -/
  | exprStmt (expr : NodeId)
  /-- `return;` or `return value;` -/
  | returnStmt (value : Option NodeId)
  /-- a link of a chain of `if`, `elif` and `else`, and the next link -/
  | conditional (branch : Branch) (condition : Option NodeId) (body : NodeId)
      (next : Option NodeId)
  /-- `while condition body` -/
  | whileLoop (condition body : NodeId)
  /-- `do body while condition;` -/
  | doWhileLoop (body condition : NodeId)
  /-- `for (init; condition; action) body` -/
  | forLoop (init condition action body : NodeId)
  /-- statements between curly brackets -/
  | block (body : List NodeId)
  /-- `struct name` with its fields and methods -/
  | structDecl (name : String) (fields methods : List NodeId)
  /-- `name :: type;` in a struct -/
  | structField (name : String) (type : NodeId)
  /-- `proc name(parameter, ...): type body` -/
  | procDecl (name : String) (parameters : List NodeId) (type body : NodeId)
  /-- `name: type` in a procedure's list -/
  | procParameter (name : String) (type : Token)
  /-- the name of a type -/
  | dataType (name : String)
deriving DecidableEq, Repr, Inhabited

namespace Construct

/-- The name of a construct in the printed tree. -/
def name : Construct → String
  | .invalid => "Invalid"
  | .integer _ => "Integer"
  | .float _ => "Float"
  | .boolean _ => "Boolean"
  | .string _ => "String"
  | .identifier .. => "Identifier"
  | .call .. => "Call"
  | .member .. => "Member"
  | .prefixed .. => "Prefix"
  | .binary .. => "Binary"
  | .varDecl .. => "VarDecl"
  | .exprStmt _ => "Expression"
  | .returnStmt _ => "Return"
  | .conditional .. => "Conditional"
  | .whileLoop .. => "While"
  | .doWhileLoop .. => "DoWhile"
  | .forLoop .. => "For"
  | .block _ => "Block"
  | .structDecl .. => "StructDecl"
  | .structField .. => "StructField"
  | .procDecl .. => "ProcDecl"
  | .procParameter .. => "ProcParameter"
  | .dataType _ => "DataType"

/-- The constructs that have a value. -/
def isExpression : Construct → Bool
  | .integer _ | .float _ | .boolean _ | .string _ | .identifier .. | .call .. | .member ..
  | .prefixed .. | .binary .. => true
  | _ => false

/-- The parts of a construct that are nodes. The fields of a struct come before its methods. -/
def children : Construct → List NodeId
  | .invalid | .integer _ | .float _ | .boolean _ | .string _ => []
  | .procParameter .. | .dataType _ => []
  | .identifier _ index => index.toList
  | .call _ arguments => arguments
  | .member object name => [object, name]
  | .prefixed _ operand => [operand]
  | .binary left _ right => [left, right]
  | .varDecl _ type value => [type, value]
  | .exprStmt expr => [expr]
  | .returnStmt value => value.toList
  | .conditional _ condition body next => condition.toList ++ body :: next.toList
  | .whileLoop condition body => [condition, body]
  | .doWhileLoop body condition => [body, condition]
  | .forLoop init condition action body => [init, condition, action, body]
  | .block body => body
  | .structDecl _ fields methods => fields ++ methods
  | .structField _ type => [type]
  | .procDecl _ parameters type body => parameters ++ [type, body]

end Construct

/-- A construct in a tree. A node that no construct has as a part has no parent. -/
structure Node where
  construct : Construct
  token : Token
  parent : Option NodeId
deriving DecidableEq, Repr, Inhabited

end Viper
