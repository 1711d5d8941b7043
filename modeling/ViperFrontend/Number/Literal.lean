/-
# Number literals

Literals are read exactly: an integer literal is its decimal value if that is below 2^64,
and a float literal, digits with one point among or behind them, is the nearest number of the
64-bit binary format. A float is written with the fewest digits that read back, positionally
from 10^-4 up to 10^16 and with an exponent outside.

Key definitions: `Literal.decimalValue`, `Literal.integer?`, `Literal.float?`, `Binary64.text`.
-/
import ViperFrontend.Number.Shortest

namespace Viper
namespace Literal

/-- The value of a run of decimal digits. -/
def decimalValue (digits : List Char) : Nat :=
  digits.foldl (fun n c => 10 * n + (c.toNat - '0'.toNat)) 0

/-- The value of an integer literal, if it is below 2^64. -/
def integer? (literal : String) : Option UInt64 :=
  let value := decimalValue literal.toList
  if value < UInt64.size then some (UInt64.ofNat value) else none

/-- The value of a float literal: digits, a point and perhaps more digits. No other text has one. -/
def float? (literal : String) : Option Binary64 :=
  let whole := literal.toList.takeWhile Char.isDigit
  match literal.toList.dropWhile Char.isDigit with
  | '.' :: fraction =>
    if whole ≠ [] ∧ fraction.all Char.isDigit then
      some (Binary64.ofRatio (decimalValue (whole ++ fraction)) (Nat.pow 10 fraction.length))
    else none
  | _ => none

end Literal

/-- Where positional notation ends, and how an exponent is marked. -/
structure FloatStyle where
  /-- the least exponent of the first digit that is written positionally -/
  leastPositional : Int
  /-- the largest one -/
  mostPositional : Int
  /-- the mark before an exponent -/
  exponentMark : Char

/-- Floats are positional from 0.0001 up to 10^16, and `e` marks an exponent. -/
def FloatStyle.tree : FloatStyle := ⟨-4, 15, 'e'⟩

namespace Decimal

/-- Plain decimal notation, with at least one digit on each side of the point. -/
def positional (d : Decimal) : List Char :=
  if d.exponent < 0 then
    ['0', '.'] ++ List.replicate ((-d.exponent).toNat - 1) '0' ++ d.digits
  else
    let whole := d.exponent.toNat + 1
    let fraction := d.digits.drop whole
    d.digits.take whole ++ List.replicate (whole - d.digits.length) '0' ++ ['.'] ++
      (if fraction = [] then ['0'] else fraction)

/-- A whole number in decimal, with its sign if it is negative. -/
def signed (n : Int) : List Char :=
  (if n < 0 then ['-'] else []) ++ Nat.toDigits 10 n.natAbs

/-- One digit, the others behind a point, and the exponent. -/
def scientific (mark : Char) (d : Decimal) : List Char :=
  d.digits.take 1 ++ (if d.digits.length ≤ 1 then [] else '.' :: d.digits.drop 1) ++
    mark :: signed d.exponent

/-- A decimal in the notation that the style asks for. -/
def text (style : FloatStyle) (d : Decimal) : List Char :=
  if style.leastPositional ≤ d.exponent ∧ d.exponent ≤ style.mostPositional then d.positional
  else d.scientific style.exponentMark

end Decimal

/-- The text of a number. The sign of zero is kept, and that of NaN is not. -/
def Binary64.text (x : Binary64) : String :=
  if x.isNaN then "NaN"
  else
    let sign := if x.isNegative then ['-'] else []
    let unsigned :=
      if x.isInfinite then ['i', 'n', 'f']
      else if x.magnitudeBits = 0 then ['0', '.', '0']
      else x.shortest.text FloatStyle.tree
    String.ofList (sign ++ unsigned)

example : (Literal.float? "0.1").map Binary64.text = some "0.1" := by decide +kernel
example : (Literal.float? "12345678901234567.").map Binary64.text = some "1.2345678901234568e16" := by
  decide +kernel

end Viper
