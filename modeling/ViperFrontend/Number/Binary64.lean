/-
# Binary floating point of 64 bits

A number of the format is held as its 64 bits: a sign, an exponent field of 11 bits and a
fraction of 52. A decimal is read as the number nearest to it, the even one of two that are
equally near, and as infinity from half a unit past the largest number on.

Key definitions: `Binary64`, `Binary64.ofRatio`, `Binary64.magnitude`.
-/
namespace Viper

/-- A number in the 64-bit binary format. -/
structure Binary64 where
  bits : UInt64
deriving DecidableEq, Repr, Inhabited

namespace Binary64

/-- The bits of the positive infinity. -/
def infinityBits : Nat := 0x7ff0000000000000

/-- The exponent of the unit of the smallest numbers: they are multiples of `2 ^ (-1074)`. -/
def minExponent : Int := -1074

/-- The least significand of 53 binary digits, `2 ^ 52`; the fraction is what comes on top. -/
def leastFull : Nat := 0x10000000000000

/-- The weight of the sign bit, `2 ^ 63`. -/
def signWeight : Nat := 0x8000000000000000

/-- `num / den` rounded to the nearest whole number, a half to the even one. -/
def roundDiv (num den : Nat) : Nat :=
  let q := num / den
  let twice := 2 * (num % den)
  if twice < den then q
  else if den < twice then q + 1
  else q + q % 2

/-- `num / den` in units of `2 ^ e`, as a quotient. -/
def inUnits (num den : Nat) (e : Int) : Nat × Nat :=
  if 0 ≤ e then (num, den * Nat.pow 2 e.toNat) else (num * Nat.pow 2 (-e).toNat, den)

/-- The exponent of the last binary digit kept of `num / den`, which is positive: 53 digits
are kept, fewer at the smallest exponent. -/
def unitExponent (num den : Nat) : Int :=
  let e : Int := (Nat.log2 num : Int) - Nat.log2 den - 52
  let scaled := inUnits num den e
  let full := if scaled.1 / scaled.2 < leastFull then e - 1 else e
  if full < minExponent then minExponent else full

/-- The number nearest to `num / den`. Counted in units from zero, the numbers of the format
follow each other as their bits do, so a carry out of the fraction ends in the exponent. -/
def ofRatio (num den : Nat) : Binary64 :=
  if num = 0 then ⟨0⟩
  else
    let e := unitExponent num den
    let scaled := inUnits num den e
    let bits := (e - minExponent).toNat * leastFull + roundDiv scaled.1 scaled.2
    ⟨UInt64.ofNat (if bits < infinityBits then bits else infinityBits)⟩

/-- The bits without the sign. -/
def magnitudeBits (x : Binary64) : Nat :=
  x.bits.toNat % signWeight

/-- The sign bit. -/
def isNegative (x : Binary64) : Bool :=
  signWeight ≤ x.bits.toNat

/-- Neither a number nor an infinity. -/
def isNaN (x : Binary64) : Bool :=
  infinityBits < x.magnitudeBits

/-- One of the two infinities. -/
def isInfinite (x : Binary64) : Bool :=
  x.magnitudeBits = infinityBits

/-- The absolute value of a finite number as `significand * 2 ^ exponent`. -/
def magnitude (x : Binary64) : Nat × Int :=
  let field := x.magnitudeBits / leastFull
  let fraction := x.magnitudeBits % leastFull
  if field = 0 then (fraction, minExponent)
  else (leastFull + fraction, minExponent + (field - 1 : Nat))

end Binary64
end Viper
