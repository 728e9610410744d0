import EcmaCore.Double.Basic

/-!
# Order, sum, product, remainder and truncation of doubles

Every operation computes its exact result in units and rounds once. Comparison
is numerical: not-a-number is unequal to everything and the two zeros are
equal, whereas `=` on doubles tells the zeros apart and knows one
not-a-number. Where a double is cut to a word, what does not fit becomes the
nearest end of the range.
-/

namespace EcmaCore.Double

/-- Whether a double is not a number. -/
def isNaN : Double → Bool
  | .nan => true
  | _ => false

/-- Whether a double is one of the two infinities. -/
def isInfinite : Double → Bool
  | .infinity _ => true
  | _ => false

/-- Whether the sign is negative; not-a-number has no sign. -/
def isNegative : Double → Bool
  | .nan => false
  | .infinity negative => negative
  | .finite negative _ => negative

/-- Whether a double is one of the two zeros. -/
def isZero : Double → Bool
  | .finite _ magnitude => magnitude.val == 0
  | _ => false

/-- The signed count of units of a finite double. -/
def units? : Double → Option Int
  | .finite true magnitude => some (-magnitude.val)
  | .finite false magnitude => some magnitude.val
  | _ => none

/-! ## Comparison -/

/-- Numerical equality. -/
def eq (a b : Double) : Bool :=
  match a, b with
  | .infinity m, .infinity n => m == n
  | a, b =>
      match a.units?, b.units? with
      | some x, some y => x == y
      | _, _ => false

/-- Numerical order; false whenever not-a-number takes part. -/
def lt (a b : Double) : Bool :=
  match a, b with
  | .nan, _ | _, .nan => false
  | .infinity m, .infinity n => m && !n
  | .infinity m, _ => m
  | _, .infinity n => !n
  | a, b =>
      match a.units?, b.units? with
      | some x, some y => x < y
      | _, _ => false

/-- Numerical order with equality; false whenever not-a-number takes part. -/
def le (a b : Double) : Bool := lt a b || eq a b

/-- The greater of two numbers, the second when they are equal or the first is not a
number. -/
def max (a b : Double) : Double := if lt b a then a else b

/-- The smaller of two numbers, the second when they are equal or the first is not a
number. -/
def min (a b : Double) : Double := if lt a b then a else b

/-! ## Arithmetic -/

/-- The double nearest to a signed count of units, with the given sign for zero. -/
def ofSigned (negativeZero : Bool) (units : Int) : Double :=
  ofUnits (if units = 0 then negativeZero else units < 0) units.natAbs

/-- The sum. Opposite infinities have none; a zero sum is negative only when both
operands are. -/
def add (a b : Double) : Double :=
  match a, b with
  | .nan, _ | _, .nan => .nan
  | .infinity m, .infinity n => if m = n then .infinity m else .nan
  | .infinity m, .finite _ _ => .infinity m
  | .finite _ _, .infinity n => .infinity n
  | .finite m x, .finite n y =>
      ofSigned (m && n)
        ((if m then -(x.val : Int) else x.val) + (if n then -(y.val : Int) else y.val))

/-- The number of the opposite sign. -/
def neg : Double → Double
  | .nan => .nan
  | .infinity negative => .infinity (!negative)
  | .finite negative magnitude => .finite (!negative) magnitude

/-- The number without its sign. -/
def abs : Double → Double
  | .nan => .nan
  | .infinity _ => .infinity false
  | .finite _ magnitude => .finite false magnitude

/-- The difference. -/
def sub (a b : Double) : Double := add a (neg b)

/-- The product. An infinity times a zero has none. -/
def mul (a b : Double) : Double :=
  match a, b with
  | .nan, _ | _, .nan => .nan
  | .infinity m, .infinity n => .infinity (m != n)
  | .infinity m, .finite n y => if y.val = 0 then .nan else .infinity (m != n)
  | .finite m x, .infinity n => if x.val = 0 then .nan else .infinity (m != n)
  | .finite m x, .finite n y => ofRatio (m != n) (x.val * y.val) one

/-- What a division with a truncated quotient leaves, with the sign of the dividend. Infinities
leave nothing that is a number, and neither does a division by zero. -/
def rem (a b : Double) : Double :=
  match a, b with
  | .nan, _ | _, .nan | .infinity _, _ => .nan
  | .finite m x, .infinity _ => .finite m x
  | .finite m x, .finite _ y => if y.val = 0 then .nan else ofUnits m (x.val % y.val)

/-- The remainder that is not negative: where `rem` leaves less than zero, the divisor is added
without its sign. -/
def remEuclid (a b : Double) : Double :=
  let rest := rem a b
  if lt rest zero then add rest (abs b) else rest

/-! ## Integers -/

/-- A finite double truncated toward zero, as an integer. -/
def toInt? (x : Double) : Option Int := x.units?.map (·.tdiv one)

/-- Truncation toward zero, which keeps the sign, also of zero. -/
def trunc : Double → Double
  | .finite negative magnitude => ofUnits negative (magnitude.val / one * one)
  | x => x

/-- The natural number below a double, but no more than the greatest one; zero for not-a-number
and for what is negative. -/
def clampNat (greatest : Nat) : Double → Nat
  | .nan => 0
  | .infinity negative => if negative then 0 else greatest
  | .finite negative magnitude => if negative then 0 else Nat.min (magnitude.val / one) greatest

/-- A double cut to a 32-bit word. -/
def toUInt32 (x : Double) : UInt32 := UInt32.ofNat (x.clampNat 0xffffffff)

/-- A double cut to a 64-bit word. -/
def toUInt64 (x : Double) : UInt64 := UInt64.ofNat (x.clampNat 0xffffffffffffffff)

end EcmaCore.Double
