import EcmaCore.Number.Basic

/-!
# Integers in Numbers

The integer part of a Number as the operations that need lengths, positions
and counts see it: with infinities kept, as an index below `2 ^ 53`, or modulo
`2 ^ 32`.
-/

namespace EcmaCore.Double

/-- The integer part, infinities kept. Not-a-number and the zeros give zero. -/
def integerPart (x : Double) : Double :=
  if x.isNaN || x.isZero then .zero else x.trunc

/-- The greatest index, `2 ^ 53 - 1`. -/
def maxIndex : Nat := (1 <<< 53) - 1

/-- An integer part as an index, if it is one. -/
def index? (x : Double) : Option UInt64 :=
  if zero.le x && x.le (ofNat maxIndex) then some x.toUInt64 else none

/-- The number of words, `2 ^ 32`. -/
def wordCount : Nat := 1 <<< 32

/-- The integer part modulo `2 ^ 32`; zero for infinities and for not-a-number. -/
def word (x : Double) : UInt32 :=
  if x.isNaN || x.isInfinite || x.isZero then 0
  else (x.trunc.remEuclid (ofNat wordCount)).toUInt32

end EcmaCore.Double
