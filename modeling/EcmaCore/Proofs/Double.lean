import EcmaCore.Number.Basic

/-!
# Rounding keeps the order

Rounding a count of units to a representable one is monotone, so the double of a
greater natural number is never the smaller one. A Number keeps the double that it is
made of.

## Main results

* `Double.roundUnits_mono`: rounding is monotone.
* `Double.lt_ofNat_of_le`: so is the conversion of natural numbers.
* `Number.toDouble_ofDouble`: the normal form of a double stands for it.
* `Number.ofSize_mono`: a greater size is not the smaller Number.
-/

namespace EcmaCore

namespace Double

theorem le_roundDiv (num den : Nat) : num / den ≤ roundDiv num den := by
  unfold roundDiv
  dsimp only
  split
  · exact Nat.le_refl _
  · split <;> omega

/-- Rounding quotients by the same number is monotone. -/
theorem roundDiv_mono {num num' : Nat} (den : Nat) (h : num ≤ num') :
    roundDiv num den ≤ roundDiv num' den := by
  rcases Nat.lt_or_eq_of_le (Nat.div_le_div_right (c := den) h) with hlt | heq
  · calc roundDiv num den ≤ num / den + 1 := roundDiv_le num den
      _ ≤ num' / den := hlt
      _ ≤ roundDiv num' den := le_roundDiv num' den
  · -- the quotients are the same, so the rests decide
    have hrest : num % den ≤ num' % den := by
      have hnum := Nat.div_add_mod num den
      have hnum' := Nat.div_add_mod num' den
      rw [heq] at hnum
      omega
    unfold roundDiv
    dsimp only
    rw [heq]
    split <;> split <;> (try split) <;> (try split) <;> omega

/-- A rounded count stays below the next power of two, or reaches it. -/
theorem roundUnits_le (units : Nat) : roundUnits units 1 ≤ spacing units <<< 53 := by
  have hlt := lt_spacing_shiftLeft units
  rw [Nat.shiftLeft_eq, Nat.mul_comm] at hlt
  have hquotient := (Nat.div_lt_iff_lt_mul (spacing_pos units)).2 hlt
  have hround := roundDiv_le units (spacing units)
  rw [Nat.shiftLeft_eq, Nat.mul_comm (spacing units)]
  unfold roundUnits
  dsimp only
  rw [Nat.div_one, Nat.one_mul]
  exact Nat.mul_le_mul_right _ (by omega)

/-- A count whose neighbours are apart rounds to a great one. -/
theorem le_roundUnits {units : Nat} (h : 1 < spacing units) :
    spacing units <<< 52 ≤ roundUnits units 1 := by
  have hlog : 52 < units.log2 := by
    refine Nat.lt_of_not_le fun hle => ?_
    rw [spacing, Nat.sub_eq_zero_of_le hle] at h
    exact absurd h (by decide)
  have hne : units ≠ 0 := by
    rintro rfl
    exact absurd hlog (by decide)
  have hle : 2 ^ 52 * spacing units ≤ units := by
    rw [spacing, Nat.one_shiftLeft, ← Nat.pow_add,
      show 52 + (units.log2 - 52) = units.log2 by omega]
    exact Nat.log2_self_le hne
  have hquotient := (Nat.le_div_iff_mul_le (spacing_pos units)).2 hle
  rw [Nat.shiftLeft_eq, Nat.mul_comm (spacing units)]
  unfold roundUnits
  dsimp only
  rw [Nat.div_one, Nat.one_mul]
  exact Nat.mul_le_mul_right _ (Nat.le_trans hquotient (le_roundDiv _ _))

/-- **Rounding is monotone.** -/
theorem roundUnits_mono {units units' : Nat} (h : units ≤ units') :
    roundUnits units 1 ≤ roundUnits units' 1 := by
  by_cases hspacing : spacing units = spacing units'
  · unfold roundUnits
    dsimp only
    rw [Nat.div_one, Nat.div_one, hspacing]
    exact Nat.mul_le_mul_right _ (roundDiv_mono _ h)
  · -- between two spacings lies a power of two
    have hlog : units.log2 ≤ units'.log2 := by
      by_cases hzero : units = 0
      · rw [hzero]
        exact Nat.zero_le _
      · exact (Nat.le_log2 (by omega)).2 (Nat.le_trans (Nat.log2_self_le hzero) h)
    have hdouble : 2 * spacing units ≤ spacing units' := by
      unfold spacing at hspacing ⊢
      rw [Nat.one_shiftLeft, Nat.one_shiftLeft] at hspacing ⊢
      have hlt : units.log2 - 52 < units'.log2 - 52 := by
        refine Nat.lt_of_le_of_ne (by omega) fun heq => hspacing (by rw [heq])
      rw [← Nat.pow_succ']
      exact Nat.pow_le_pow_right (by decide) hlt
    have hpos := spacing_pos units
    calc roundUnits units 1 ≤ spacing units <<< 53 := roundUnits_le units
      _ ≤ spacing units' <<< 52 := by
        rw [Nat.shiftLeft_eq, Nat.shiftLeft_eq]
        omega
      _ ≤ roundUnits units' 1 := le_roundUnits (by omega)

/-- The double of a greater natural number is not the smaller one. -/
theorem lt_ofNat_of_le {m n : Nat} (h : m ≤ n) : lt (ofNat n) (ofNat m) = false := by
  have hround := roundUnits_mono (Nat.mul_le_mul_right one h)
  unfold ofNat ofUnits ofRatio
  by_cases hn : roundUnits (n * one) 1 < bound
  · rw [dif_pos hn, dif_pos (Nat.lt_of_le_of_lt hround hn)]
    refine decide_eq_false (Int.not_lt.2 ?_)
    exact Int.ofNat_le.2 hround
  · rw [dif_neg hn]
    split <;> rfl

end Double

namespace Number

/-- The normal form of a double stands for it. -/
theorem toDouble_ofDouble (x : Double) : (ofDouble x).toDouble = x := by
  cases x with
  | nan => rfl
  | infinity negative => cases negative <;> rfl
  | finite negative magnitude =>
      unfold ofDouble
      dsimp only
      split
      · next h =>
        obtain ⟨hwhole, -, hzero⟩ := h
        have hunits : magnitude.val / Double.one * Double.one = magnitude.val := by
          have hdivide := Nat.div_add_mod magnitude.val Double.one
          rw [hwhole, Nat.add_zero, Nat.mul_comm] at hdivide
          exact hdivide
        generalize magnitude.val / Double.one = whole at hunits
        cases negative with
        | false =>
            have hsign : decide ((whole : Int) < 0) = false := decide_eq_false (by omega)
            show Double.ofUnits (decide ((whole : Int) < 0)) (whole * Double.one) = _
            rw [hsign, hunits, Double.ofUnits_val]
        | true =>
            have hpos : 0 < whole := by
              refine Nat.pos_of_ne_zero fun hnone => hzero ⟨?_, rfl⟩
              rw [← hunits, hnone, Nat.zero_mul]
            have hsign : decide (-(whole : Int) < 0) = true := decide_eq_true (by omega)
            show Double.ofUnits (decide (-(whole : Int) < 0))
              ((-(whole : Int)).natAbs * Double.one) = _
            rw [hsign, Int.natAbs_neg, Int.natAbs_natCast, hunits, Double.ofUnits_val]
      · rfl

/-- A greater size is not the smaller Number. -/
theorem ofSize_mono {m n : UInt64} (h : m ≤ n) :
    (ofSize n).toDouble.lt (ofSize m).toDouble = false := by
  rw [ofSize, ofSize, toDouble_ofDouble, toDouble_ofDouble]
  exact Double.lt_ofNat_of_le (UInt64.le_iff_toNat_le.1 h)

end Number

end EcmaCore
