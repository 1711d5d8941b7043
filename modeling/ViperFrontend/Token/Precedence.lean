/-
# Precedence of the binary operators

Ten levels, loosest first. Within a level the operators group to the left, but for
assignments, which group to the right.

Key definitions: `Precedence`, `TokenKind.precedence?`, `Precedence.grabs`.
-/
import ViperFrontend.Token.Kind

namespace Viper

/-- How tightly a binary operator holds its operands, loosest first. -/
inductive Precedence where
  | assignment | logicalOr | logicalAnd | bitwiseOr | bitwiseXor | bitwiseAnd | comparison
  | shift | additive | multiplicative
deriving DecidableEq, Repr, Inhabited

namespace Precedence

/-- The number of looser levels. -/
def level : Precedence → Nat
  | .assignment => 0
  | .logicalOr => 1
  | .logicalAnd => 2
  | .bitwiseOr => 3
  | .bitwiseXor => 4
  | .bitwiseAnd => 5
  | .comparison => 6
  | .shift => 7
  | .additive => 8
  | .multiplicative => 9

/-- The level whose operators group to the right. -/
def groupsRight (p : Precedence) : Bool :=
  p = .assignment

/-- Whether the operand between an operator of level `p` on its left and one of level `next`
on its right belongs to the latter. -/
def grabs (p next : Precedence) : Bool :=
  p.level < next.level || (p = next && next.groupsRight)

end Precedence

/-- The precedence of a binary operator. -/
def TokenKind.precedence? : TokenKind → Option Precedence
  | .assignment | .plusEquals | .minusEquals | .starEquals | .slashEquals | .percentEquals
  | .leftShiftEquals | .rightShiftEquals | .andEquals | .orEquals | .xorEquals
  | .tildeEquals => some .assignment
  | .or => some .logicalOr
  | .and => some .logicalAnd
  | .pipe => some .bitwiseOr
  | .caret => some .bitwiseXor
  | .ampersand => some .bitwiseAnd
  | .equals | .notEquals | .less | .lessEquals | .greater | .greaterEquals => some .comparison
  | .leftShift | .rightShift => some .shift
  | .plus | .dash => some .additive
  | .star | .slash | .percent => some .multiplicative
  | _ => none

end Viper
