import EcmaCore.Proofs.Integer

/-!
# Interchange bits of doubles

A pattern of 64 bits is a sign, an exponent and a fraction. A subnormal number has its fraction
as count of units, and every other finite number has its fraction behind a leading bit, shifted
by the exponent. Either count is representable, so a pattern is read without rounding, and the
shift and the fraction are found again by the position of the leading bit. So doubles lose no
pattern, but all that stand for no number become one.

## Main results

* `Double.toBits_subnormal`, `Double.toBits_normal`: the bits of finite doubles.
* `Double.toBits_ofBits`: a pattern that stands for a number is written as it was read.
-/

namespace EcmaCore.Double

/-! ## Significands with a leading bit -/

variable {fraction shift : Nat}

/-- The leading bit of a significand says how far it is shifted. -/
theorem log2_normal (h : fraction < leadingBit) :
    ((leadingBit + fraction) <<< shift).log2 = 52 + shift := by
  have hlead : leadingBit = 2 ^ 52 := by decide
  rw [hlead] at h ⊢
  have hpos := Nat.two_pow_pos shift
  have hlow : 2 ^ 52 * 2 ^ shift ≤ (2 ^ 52 + fraction) * 2 ^ shift :=
    Nat.mul_le_mul_right _ (Nat.le_add_right _ _)
  have hhigh : (2 ^ 52 + fraction) * 2 ^ shift < 2 ^ 53 * 2 ^ shift :=
    Nat.mul_lt_mul_of_pos_right (by omega) hpos
  have hne : (2 ^ 52 + fraction) * 2 ^ shift ≠ 0 := by omega
  rw [Nat.shiftLeft_eq, Nat.log2_eq_iff hne, show 52 + shift + 1 = 53 + shift by omega,
    Nat.pow_add, Nat.pow_add]
  exact ⟨hlow, hhigh⟩

theorem shiftLeft_lt_shiftLeft {a b m n : Nat} (hab : a < b) (hmn : m ≤ n) :
    a <<< m < b <<< n := by
  rw [Nat.shiftLeft_eq, Nat.shiftLeft_eq]
  exact Nat.mul_lt_mul_of_lt_of_le hab (Nat.pow_le_pow_right Nat.zero_lt_two hmn)
    (Nat.two_pow_pos n)

/-- A significand that is not shifted beyond the range is the count of a double. -/
theorem representable_normal (h : fraction < leadingBit) (hshift : shift ≤ 2045) :
    Representable ((leadingBit + fraction) <<< shift) := by
  have hbits : leadingBit + fraction < 1 <<< 53 := by
    have hdouble : 1 <<< 53 = leadingBit + leadingBit := by decide
    omega
  refine ⟨?_, spacing_shiftLeft_dvd (Nat.le_of_lt hbits)⟩
  have hbound : bound = 1 <<< 53 <<< 2045 := by rw [bound, ← Nat.shiftLeft_add]
  rw [hbound]
  exact shiftLeft_lt_shiftLeft hbits hshift

/-- A fraction without a leading bit is the count of a double. -/
theorem representable_subnormal (h : fraction < leadingBit) : Representable fraction := by
  have hbits : fraction ≤ 1 <<< 53 := Nat.le_trans (Nat.le_of_lt h) (by decide)
  refine ⟨Nat.lt_trans h (one_shiftLeft_lt (by omega)), ?_⟩
  simpa using spacing_shiftLeft_dvd (s := 0) hbits

/-! ## Writing -/

/-- The bits of a double below the least normal one. -/
theorem toBits_subnormal (negative : Bool) (h : fraction < leadingBit) :
    (finite negative ⟨fraction, representable_subnormal h⟩).toBits =
      UInt64.ofNat ((if negative then signBit else 0) + fraction) := by
  rw [toBits]
  dsimp only
  rw [if_pos h]

/-- The bits of a normal double. -/
theorem toBits_normal (negative : Bool) (h : fraction < leadingBit) (hshift : shift ≤ 2045) :
    (finite negative ⟨(leadingBit + fraction) <<< shift, representable_normal h hshift⟩).toBits =
      UInt64.ofNat ((if negative then signBit else 0) + ((shift + 1) <<< 52 + fraction)) := by
  have hlarge : ¬(leadingBit + fraction) <<< shift < leadingBit := by
    rw [Nat.shiftLeft_eq]
    have hle := Nat.mul_le_mul_left (leadingBit + fraction) (Nat.two_pow_pos shift)
    omega
  rw [toBits]
  dsimp only
  rw [if_neg hlarge, log2_normal h, Nat.add_sub_cancel_left, Nat.shiftLeft_shiftRight,
    Nat.add_sub_cancel_left]

/-! ## Reading and writing -/

/-- The double with a sign, an exponent and a fraction. -/
def ofFields (negative : Bool) (exponent fraction : Nat) : Double :=
  if exponent = 2047 then
    if fraction = 0 then .infinity negative else .nan
  else if exponent = 0 then ofUnits negative fraction
  else ofUnits negative ((leadingBit + fraction) <<< (exponent - 1))

theorem ofBits_eq (bits : UInt64) :
    ofBits bits = ofFields (signBit ≤ bits.toNat) (bits.toNat >>> 52 % 2048)
      (bits.toNat % leadingBit) :=
  rfl

/-- The bits of a double are its sign, its exponent and its fraction. -/
theorem toBits_ofFields (negative : Bool) {exponent : Nat} (hexponent : exponent < 2048)
    (hfraction : fraction < leadingBit) :
    (ofFields negative exponent fraction).toBits =
      if (ofFields negative exponent fraction).isNaN then nan.toBits
      else UInt64.ofNat ((if negative then signBit else 0) + (exponent <<< 52 + fraction)) := by
  unfold ofFields
  by_cases hspecial : exponent = 2047
  · subst hspecial
    by_cases hzero : fraction = 0
    · subst hzero
      cases negative <;> rfl
    · rw [if_pos rfl, if_neg hzero]
      rfl
  · rw [if_neg hspecial]
    by_cases hsubnormal : exponent = 0
    · subst hsubnormal
      rw [if_pos rfl, ofUnits_val negative ⟨fraction, representable_subnormal hfraction⟩,
        toBits_subnormal negative hfraction, Nat.zero_shiftLeft, Nat.zero_add]
      rfl
    · have hshift : exponent - 1 ≤ 2045 := by omega
      rw [if_neg hsubnormal, ofUnits_val negative ⟨_, representable_normal hfraction hshift⟩,
        toBits_normal negative hfraction hshift, Nat.sub_add_cancel (by omega)]
      rfl

/-- A pattern is the sum of its sign, its exponent and its fraction. -/
theorem pattern_eq (bits : UInt64) :
    (if signBit ≤ bits.toNat then signBit else 0) +
        ((bits.toNat >>> 52 % 2048) <<< 52 + bits.toNat % leadingBit) = bits.toNat := by
  have hlt := bits.toNat_lt
  have hsign : signBit = 9223372036854775808 := by decide
  have hlead : leadingBit = 4503599627370496 := by decide
  rw [Nat.shiftRight_eq_div_pow, Nat.shiftLeft_eq, hsign, hlead]
  split <;> omega

/-- **A pattern that stands for a number is written as it was read**, and every other pattern as the
one pattern of not-a-number. -/
theorem toBits_ofBits (bits : UInt64) :
    (ofBits bits).toBits = if (ofBits bits).isNaN then nan.toBits else bits := by
  have hfields := toBits_ofFields (signBit ≤ bits.toNat)
    (Nat.mod_lt (bits.toNat >>> 52) (by decide))
    (Nat.mod_lt bits.toNat (by decide : 0 < leadingBit))
  simp only [decide_eq_true_eq, pattern_eq, UInt64.ofNat_toNat] at hfields
  rw [ofBits_eq]
  exact hfields

end EcmaCore.Double
