/-
# The printed tree

One line for each visit of a node, parents first, indented by two spaces for each level
below the root. The line is the name of the construct with what tells it apart.

Key definitions: `Node.label`, `Ast.outline`.
Key theorems: `Ast.outlineFrom_eq`.
-/
import ViperFrontend.Ast.Walk
import ViperFrontend.Number.Literal

namespace Viper

/-- The keyword of a link of a conditional chain. -/
def Branch.keyword : Branch → TokenKind
  | .ifBranch => .kwIf
  | .elifBranch => .kwElif
  | .elseBranch => .kwElse

/-- The line of a node in the printed tree. -/
def Node.label (node : Node) : String :=
  let name := node.construct.name
  match node.construct with
  | .invalid => name ++ " (at " ++ Text.quoteString node.token.text ++ ")"
  | .integer value => name ++ " " ++ String.ofList (Nat.toDigits 10 value.toNat)
  | .float value => name ++ " " ++ value.text
  | .boolean value => name ++ " " ++ (if value then "true" else "false")
  | .string value => name ++ " " ++ Text.quoteString value
  | .identifier ident _ => name ++ " " ++ ident
  | .call callee _ => name ++ " " ++ callee
  | .prefixed operator _ => name ++ " " ++ operator.describe
  | .binary _ operator _ => name ++ " " ++ operator.describe
  | .varDecl ident _ _ => name ++ " " ++ ident
  | .conditional branch _ _ _ => name ++ " " ++ branch.keyword.spelling
  | .structDecl ident _ _ => name ++ " " ++ ident
  | .structField ident _ => name ++ " " ++ ident
  | .procDecl ident _ _ _ => name ++ " " ++ ident
  | .procParameter ident type => name ++ " " ++ ident ++ ": " ++ type.text
  | .dataType ident => name ++ " " ++ ident
  | _ => name

namespace Ast

/-- Two spaces for each level. -/
def indent (depth : Nat) : String :=
  String.ofList (List.replicate (2 * depth) ' ')

/-- The line of a node `depth` levels below its root. -/
def outlineLine (ast : Ast) (depth : Nat) (id : NodeId) : String :=
  match ast.nodes[id]? with
  | none => ""
  | some node => indent depth ++ node.label ++ "\n"

/-- The text with the lines of a node and of everything below it. -/
def outlineFrom (ast : Ast) (depth : Nat) (text : String) (id : NodeId) : String :=
  (ast.below id).attach.foldl (fun text child => ast.outlineFrom (depth + 1) text child.1)
    (text ++ ast.outlineLine depth id)
termination_by id
decreasing_by exact lt_of_mem_below child.2

theorem outlineFrom_eq (ast : Ast) (depth : Nat) (text : String) (id : NodeId) :
    ast.outlineFrom depth text id =
      (ast.below id).foldl (ast.outlineFrom (depth + 1)) (text ++ ast.outlineLine depth id) := by
  rw [outlineFrom, List.foldl_attach]

/-- The printed tree. -/
def outline (ast : Ast) : String :=
  ast.roots.foldl (ast.outlineFrom 0) ""

end Ast
end Viper
