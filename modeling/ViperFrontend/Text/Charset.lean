/-
# Sets of characters as tables of ranges

A property of characters that a standard gives by listing code points is kept as a table
of closed ranges, in ascending order.

Key definitions: `Charset`, `Charset.contains`, `Charset.isAscending`.
-/
namespace Viper
namespace Text

/-- A set of characters: closed ranges of code points. -/
abbrev Charset := List (Nat × Nat)

/-- Membership of a character in one of the ranges. -/
def Charset.contains (set : Charset) (c : Char) : Bool :=
  set.any fun range => range.1 ≤ c.toNat && c.toNat ≤ range.2

/-- The ranges are in ascending order and lie apart. -/
def Charset.isAscending : Charset → Bool
  | a :: b :: rest => a.2 < b.1 && Charset.isAscending (b :: rest)
  | _ => true

end Text
end Viper
