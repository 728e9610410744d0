import EcmaCore.Double.Arith

/-!
# Numbers in normal form

A Number is kept in one of five forms. Integers below `2 ^ 53` in absolute
value are exact integers; every other finite double, minus zero among them,
stays a double; not-a-number and the two infinities stand on their own.
`ofDouble` gives each double its form and `toDouble` reads it back.
-/

namespace EcmaCore

/-- A Number, in the form `Number.ofDouble` chooses for it. -/
inductive Number where
  | integer (value : Int)
  | float (value : Double)
  | nan
  | positiveInfinity
  | negativeInfinity
  deriving DecidableEq

namespace Number

/-- Integers of this size and beyond stay doubles. -/
def integerBound : Nat := 1 <<< 53

/-- The normal form of a double. -/
def ofDouble : Double → Number
  | .nan => .nan
  | .infinity false => .positiveInfinity
  | .infinity true => .negativeInfinity
  | .finite negative magnitude =>
      let units := magnitude.val
      let whole := units / Double.one
      if units % Double.one = 0 ∧ whole < integerBound ∧ ¬(units = 0 ∧ negative) then
        .integer (if negative then -whole else whole)
      else
        .float (.finite negative magnitude)

/-- The double that a Number stands for. -/
def toDouble : Number → Double
  | .integer value => .ofInt value
  | .float value => value
  | .nan => .nan
  | .positiveInfinity => .infinity false
  | .negativeInfinity => .infinity true

/-- The Number of an integer. -/
def ofInt (value : Int) : Number := ofDouble (.ofInt value)

/-- The Number of a 64-bit size, rounded where a double cannot hold it. -/
def ofSize (size : UInt64) : Number := ofDouble (.ofNat size.toNat)

/-- Equality form by form; doubles compare numerically. -/
def sameForm : Number → Number → Bool
  | .integer a, .integer b => a == b
  | .float a, .float b => a.eq b
  | .nan, .nan => true
  | .positiveInfinity, .positiveInfinity => true
  | .negativeInfinity, .negativeInfinity => true
  | _, _ => false

/-- The name of the form a Number is kept in. -/
def formName : Number → String
  | .integer _ => "Integer"
  | .float _ => "Float"
  | .nan => "NaN"
  | .positiveInfinity => "PositiveInfinity"
  | .negativeInfinity => "NegativeInfinity"

end Number

end EcmaCore
