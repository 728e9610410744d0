import EcmaCore.Double.Basic
import EcmaCore.Text.Numeral

/-!
# The fewest digits that read back

The reals that round to a positive double form an interval around it, whose
ends belong to it exactly when the last kept bit of the double is even. Among
the decimal numbers in that interval, `shortest` picks one with the fewest
digits, of those the nearest to the double, and of two equally near the
greater.

All comparisons are between natural numbers: the double and the ends of its
interval are counted in quarters of its spacing.
-/

namespace EcmaCore

/-- The decimal number `coefficient * 10 ^ exponent`. -/
structure Decimal where
  coefficient : Nat
  exponent : Int
  deriving DecidableEq, Repr

/-- A decimal without trailing zeros in its coefficient. -/
def Decimal.normalize (d : Decimal) : Decimal :=
  if h : d.coefficient ≠ 0 ∧ d.coefficient % 10 = 0 then
    Decimal.normalize ⟨d.coefficient / 10, d.exponent + 1⟩
  else d
termination_by d.coefficient
decreasing_by omega

namespace Double

/-! ## The interval that rounds to a double -/

/-- The interval of a positive count of units, each part to be multiplied by
`scale / 2 ^ 1076`. -/
structure Interval where
  low : Nat
  value : Nat
  high : Nat
  scale : Nat
  closed : Bool

/-- The interval of the reals that round to `units`. Below a power of two the neighbour is
only half as far away. -/
def interval (units : Nat) : Interval :=
  let step := spacing units
  let significand := units / step
  let low := if significand = 1 <<< 52 ∧ 1 < step then 1 else 2
  { low := 4 * significand - low
    value := 4 * significand
    high := 4 * significand + 2
    scale := step
    closed := significand % 2 == 0 }

/-- Whether `num / den` lies in an interval. -/
def Interval.contains (i : Interval) (num den : Nat) : Bool :=
  if i.closed then i.low * den ≤ num && num ≤ i.high * den
  else i.low * den < num && num < i.high * den

/-! ## Decimal grids -/

/-- The number of decimal digits of a natural number; none for zero. -/
def digitCount (n : Nat) : Nat :=
  if n = 0 then 0 else digitCount (n / 10) + 1

/-- The exponent `e` with `10 ^ (e - 1) ≤ units * 2 ^ -1074 < 10 ^ e`, for a positive
count. Every positive double exceeds `10 ^ -350`. -/
def decimalExponent (units : Nat) : Int :=
  (digitCount (units * powerOfTen 350 / one) : Int) - 350

/-- The multiples of `10 ^ exponent` next to a double that lie in its interval: the nearer
one, the greater one when both are equally near. -/
def onGrid? (i : Interval) (exponent : Int) : Option Decimal :=
  -- `lower` grid steps are `value * scale / 4` units of `2 ^ -1074` rounded down.
  let num := i.scale * powerOfTen (-exponent).toNat
  let den := 4 * one * powerOfTen exponent.toNat
  let lower := i.value * num / den
  let upper := lower + 1
  let rest := i.value * num % den
  let lowerIn := i.contains (lower * den) num
  let upperIn := i.contains (upper * den) num
  if lowerIn && (!upperIn || 2 * rest < den) then some ⟨lower, exponent⟩
  else if upperIn then some ⟨upper, exponent⟩
  else none

/-- Tries grids of ever more digits, the last being exact enough for every double. -/
def searchGrids (i : Interval) (top : Int) : Nat → Decimal
  | 0 => ⟨0, 0⟩
  | digitsLeft + 1 =>
      match onGrid? i (top - (17 - digitsLeft : Nat)) with
      | some decimal => decimal
      | none => searchGrids i top digitsLeft

/-- The shortest decimal that rounds to a positive count of units. -/
def shortest (units : Nat) : Decimal :=
  (searchGrids (interval units) (decimalExponent units) 17).normalize

end Double

end EcmaCore
