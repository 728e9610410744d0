import EcmaCore.Double.Arith
import EcmaCore.Double.Shortest
import EcmaCore.Text.Blank
import EcmaCore.Text.Numeral

/-!
# Reading numbers from text

A text, stripped of white space at both ends, denotes a number when it is
empty (zero), an infinity, an integer in base 16, 8 or 2 behind `0x`, `0o` or
`0b`, or a decimal literal. `NumericLiteral.parse` recognises these forms and
`NumericLiteral.value` gives their doubles; any other text is not a number.
-/

namespace EcmaCore

/-- The forms of text that denote a number. -/
inductive NumericLiteral where
  | empty
  | infinity (negative : Bool)
  | radix (base : Nat) (digits : List Nat)
  | decimal (negative : Bool) (value : Decimal)
  deriving DecidableEq, Repr

/-! ## Values -/

namespace Double

/-- The double nearest to a decimal of the given sign. Coefficients with an exponent far
beyond the range of doubles are decided by their size alone. -/
def ofDecimal (negative : Bool) (d : Decimal) : Double :=
  let magnitude := d.exponent + digitCount d.coefficient
  if d.coefficient = 0 ∨ magnitude < -400 then ofUnits negative 0
  else if 400 < magnitude then .infinity negative
  else ofRatio negative (d.coefficient * one * powerOfTen d.exponent.toNat)
    (powerOfTen (-d.exponent).toNat)

/-- Digits in a base read from the left: each step multiplies by the base, rounds, adds the
digit and rounds. -/
def ofRadixDigits (base : Nat) (digits : List Nat) : Double :=
  digits.foldl (fun value digit => add (mul value (ofNat base)) (ofNat digit)) zero

end Double

namespace NumericLiteral

/-- The double that a literal denotes. -/
def value : NumericLiteral → Double
  | .empty => .zero
  | .infinity negative => .infinity negative
  | .radix base digits => .ofRadixDigits base digits
  | .decimal negative d => .ofDecimal negative d

/-! ## Recognition -/

/-- Whether a character is a digit in the given base, which is at most sixteen. -/
def isDigitIn (base : Nat) (c : Char) : Bool :=
  (isDecimalDigit c || ('a' ≤ c && c ≤ 'f') || ('A' ≤ c && c ≤ 'F')) && digitValue c < base

/-- The digits of a radix literal behind its two-character mark. -/
def radixDigits? (base : Nat) (digits : List Char) : Option NumericLiteral :=
  if digits.all (isDigitIn base) then some (.radix base (digits.map digitValue)) else none

/-- The base that the second character of a radix mark stands for. -/
def radixBase? (c : Char) : Option Nat :=
  if c = 'x' ∨ c = 'X' then some 16
  else if c = 'o' ∨ c = 'O' then some 8
  else if c = 'b' ∨ c = 'B' then some 2
  else none

/-- An optional sign and what follows it; the flag says whether it is a minus. -/
def splitSign : List Char → Bool × List Char
  | '-' :: rest => (true, rest)
  | '+' :: rest => (false, rest)
  | text => (false, text)

/-- The exponent of a decimal literal: an optional sign and at least one digit. -/
def exponent? (text : List Char) : Option Int :=
  let (negative, digits) := splitSign text
  if digits ≠ [] ∧ digits.all isDecimalDigit then
    some (if negative then -(numeralValue digits : Int) else numeralValue digits)
  else none

/-- The mantissa of a decimal literal: digits with at most one point among them, and at least
one digit. -/
def mantissa? (text : List Char) : Option Decimal :=
  let whole := text.takeWhile isDecimalDigit
  match text.dropWhile isDecimalDigit with
  | [] => if whole = [] then none else some ⟨numeralValue whole, 0⟩
  | c :: fraction =>
      if c = '.' ∧ fraction.all isDecimalDigit ∧ whole ++ fraction ≠ [] then
        some ⟨numeralValue (whole ++ fraction), -fraction.length⟩
      else none

/-- Whether a character starts an exponent. -/
def isExponentMark (c : Char) : Bool := c == 'e' || c == 'E'

/-- A decimal literal: an optional sign, a mantissa and an optional exponent. -/
def decimal? (text : List Char) : Option NumericLiteral := do
  let (negative, unsigned) := splitSign text
  let mantissa ← mantissa? (unsigned.takeWhile (!isExponentMark ·))
  match unsigned.dropWhile (!isExponentMark ·) with
  | [] => some (.decimal negative mantissa)
  | _ :: exponentText =>
      let exponent ← exponent? exponentText
      some (.decimal negative ⟨mantissa.coefficient, mantissa.exponent + exponent⟩)

/-- The literal that a text without white space at its ends spells. -/
def parseTrimmed (text : List Char) : Option NumericLiteral :=
  if text = [] then some .empty
  else if text = "Infinity".toList ∨ text = "+Infinity".toList then some (.infinity false)
  else if text = "-Infinity".toList then some (.infinity true)
  else
    match text with
    | '0' :: mark :: digit :: digits =>
        match radixBase? mark with
        | some base => radixDigits? base (digit :: digits)
        | none => decimal? text
    | _ => decimal? text

/-- The literal that a text spells. -/
def parse (text : List Char) : Option NumericLiteral := parseTrimmed (trimBlank text)

end NumericLiteral

/-- The number that a text denotes; not-a-number when it denotes none. -/
def Double.ofText (text : String) : Double :=
  match NumericLiteral.parse text.toList with
  | some literal => literal.value
  | none => .nan

end EcmaCore
