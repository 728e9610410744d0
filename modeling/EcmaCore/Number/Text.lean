import EcmaCore.Double.Shortest
import EcmaCore.Number.Basic
import EcmaCore.Text.Numeral

/-!
# Numbers as text

Two texts of a Number are defined here. `Double.text` is what converting a
Number to a string gives: the fewest digits that read back, positional from
`10 ^ -6` up to `10 ^ 21` and scientific outside. `Number.describe` names the
form a Number is kept in, for diagnostics.
-/

namespace EcmaCore

/-- An integer in decimal, with a minus sign only when it is negative. -/
def intNumeral (i : Int) : List Char :=
  if i < 0 then '-' :: numeral i.natAbs else numeral i.natAbs

namespace Decimal

/-- One digit, a point before the others if there are any, then `e` and the exponent, a
positive one after the given sign. -/
def scientific (d : Decimal) (positiveSign : List Char) : List Char :=
  let digits := numeral d.coefficient
  let exponent := d.exponent + digits.length - 1
  digits.take 1 ++ (if digits.length ≤ 1 then [] else '.' :: digits.drop 1) ++
    'e' :: (if exponent < 0 then intNumeral exponent else positiveSign ++ intNumeral exponent)

/-- Digits around a point, with zeros where the digits do not reach it. A whole number is
followed by `wholeEnd`. -/
def positional (d : Decimal) (wholeEnd : List Char) : List Char :=
  let digits := numeral d.coefficient
  if 0 ≤ d.exponent then digits ++ List.replicate d.exponent.toNat '0' ++ wholeEnd
  else
    let places := (-d.exponent).toNat
    if places < digits.length then
      digits.take (digits.length - places) ++ '.' :: digits.drop (digits.length - places)
    else
      '0' :: '.' :: (List.replicate (places - digits.length) '0' ++ digits)

end Decimal

namespace Double

/-- The double nearest to `10 ^ -n`, in units. -/
def tenthPower (n : Nat) : Nat := roundUnits one (powerOfTen n)

/-- The text of a positive count of units as a Number. -/
def magnitudeText (units : Nat) : List Char :=
  if powerOfTen 21 * one ≤ units ∨ units < tenthPower 6 then (shortest units).scientific ['+']
  else if units % one = 0 then numeral (units / one)
  else (shortest units).positional []

/-- A Number as a string. Both zeros are `0`. -/
def text : Double → List Char
  | .nan => "NaN".toList
  | .infinity false => "Infinity".toList
  | .infinity true => "-Infinity".toList
  | .finite negative magnitude =>
      if magnitude.val = 0 then ['0']
      else if negative then '-' :: magnitudeText magnitude.val
      else magnitudeText magnitude.val

/-- A Number as a string. -/
def toText (x : Double) : String := String.ofList x.text

/-- The digits of a double for diagnostics: scientific from `10 ^ 16` up and below
`10 ^ -4`, and with at least one digit after the point otherwise. -/
def describeMagnitude (units : Nat) : List Char :=
  if units = 0 then "0.0".toList
  else if powerOfTen 16 * one ≤ units ∨ units < tenthPower 4 then (shortest units).scientific []
  else (shortest units).positional ['.', '0']

/-- A double for diagnostics, with the sign of a negative zero. -/
def describe : Double → String
  | .nan => "NaN"
  | .infinity false => "inf"
  | .infinity true => "-inf"
  | .finite negative magnitude =>
      String.ofList ((if negative then ['-'] else []) ++ describeMagnitude magnitude.val)

end Double

/-- The form of a Number and, where the form has one, its value. -/
def Number.describe : Number → String
  | .integer value => "Integer(" ++ String.ofList (intNumeral value) ++ ")"
  | .float value => "Float(" ++ value.describe ++ ")"
  | other => other.formName

end EcmaCore
