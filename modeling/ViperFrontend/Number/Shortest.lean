/-
# The shortest decimal that reads back

A finite number is written with the fewest significant digits of a decimal that reads back
as it. Of the decimals with that many digits it is the nearest, and the larger of two that
are equally near. All is exact arithmetic on whole numbers.

Key definitions: `Decimal`, `Binary64.shortest`.
-/
import ViperFrontend.Number.Binary64

namespace Viper

/-- A decimal in scientific form: the point stands behind the first digit and moves by
`exponent` places. -/
structure Decimal where
  digits : List Char
  exponent : Int

/-- A positive number between its neighbours, in quarters of a unit of `2 ^ exponent`: the
decimals that read back as it lie between `low` and `high`, and the two ends read back as
it too if `closed` holds. -/
structure Binary64.Interval where
  low : Nat
  mid : Nat
  high : Nat
  exponent : Int
  closed : Bool

namespace Binary64

/-- The interval of a positive finite number. The number below a power of two is only half
as far away as the one above. -/
def interval (x : Binary64) : Interval :=
  let m := x.magnitude.1
  let e := x.magnitude.2
  { low := if m = leastFull ∧ minExponent < e then 4 * m - 1 else 4 * m - 2
    mid := 4 * m
    high := 4 * m + 2
    exponent := e - 2
    closed := m % 2 = 0 }

namespace Interval

/-- `n` quarter units in units of `10 ^ p`, as a quotient. -/
def inPowers (i : Interval) (n : Nat) (p : Int) : Nat × Nat :=
  let num := if 0 ≤ i.exponent then n * Nat.pow 2 i.exponent.toNat else n
  let den := if 0 ≤ i.exponent then 1 else Nat.pow 2 (-i.exponent).toNat
  if 0 ≤ p then (num, den * Nat.pow 10 p.toNat) else (num * Nat.pow 10 (-p).toNat, den)

/-- Whether `k * 10 ^ p` reads back as the number. -/
def contains (i : Interval) (k : Nat) (p : Int) : Bool :=
  let low := i.inPowers i.low p
  let high := i.inPowers i.high p
  if i.closed then low.1 ≤ k * low.2 && k * high.2 ≤ high.1
  else low.1 < k * low.2 && k * high.2 < high.1

/-- The decimal of the grid of multiples of `10 ^ p` that reads back as the number. Only the
neighbours of the number on the grid can be the nearest. -/
def onGrid? (i : Interval) (p : Int) : Option Nat :=
  let value := i.inPowers i.mid p
  let below := value.1 / value.2
  let belowNearer := 2 * (value.1 % value.2) < value.2
  match i.contains below p, i.contains (below + 1) p with
  | true, true => some (if belowNearer then below else below + 1)
  | true, false => some below
  | false, true => some (below + 1)
  | false, false => none

/-- The exponent of the first significant digit of the number. Every positive number of the
format is above `10 ^ (-400)`. -/
def leadingExponent (i : Interval) : Int :=
  let scaled := i.inPowers i.mid (-400)
  ((Nat.toDigits 10 (scaled.1 / scaled.2)).length : Int) - 401

/-- The decimal with `count` digits or the next count that has one; `more` counts are left. -/
def search (i : Interval) (count : Nat) : Nat → Nat × Int
  | 0 =>
    let p := i.leadingExponent - count + 1
    let value := i.inPowers i.mid p
    (value.1 / value.2, p)
  | more + 1 =>
    let p := i.leadingExponent - count + 1
    match i.onGrid? p with
    | some k => (k, p)
    | none => i.search (count + 1) more

end Interval

/-- The scientific form of `k * 10 ^ p`, without zeros at its end. -/
def Decimal.ofScaled (k : Nat) (p : Int) : Decimal :=
  let digits := Nat.toDigits 10 k
  { digits := (digits.reverse.dropWhile (· = '0')).reverse
    exponent := p + digits.length - 1 }

/-- The shortest decimal that reads back as a positive finite number: 17 digits always do. -/
def shortest (x : Binary64) : Decimal :=
  let scaled := x.interval.search 1 17
  Decimal.ofScaled scaled.1 scaled.2

end Binary64
end Viper
