import EcmaCore.Proofs.Integer

/-!
# Integer parts and the sign of zero

The integer part of a finite double is the double of the integer that truncation leaves. That
integer has no sign when it is zero, but truncation of a double keeps the sign: of the doubles
between minus one and zero it makes minus zero. Zeros are given the positive sign before the
truncation and not after it, so these doubles keep minus zero as their integer part. They are
the only ones. Everywhere else the integer part is the double of the integer, it is kept as an
integer within the bound, and taking it once more makes no difference.

## Main results

* `Double.integerPart_eq`: the integer part is the double of an integer, or minus zero.
* `Double.integerPart_integerPart`: taking it once more.
* `Double.integerPart_spec`: integer parts of all doubles, as Numbers and taken twice.
* `Double.integerPart_of_minus_half`: minus zero as an integer part.
-/

namespace EcmaCore

namespace Double

/-- Whether a double lies strictly between minus one and zero. -/
def isMinusFraction (x : Double) : Bool := (ofInt (-1)).lt x && x.lt zero

/-! ## Doubles of integers -/

theorem mul_one_eq_zero_iff (n : Nat) : n * one = 0 ↔ n = 0 := by
  rw [Nat.mul_eq_zero, or_iff_left (Nat.ne_of_gt one_pos)]

/-- The double of an integer has its sign; zero is positive. -/
theorem ofInt_of_representable {n : Nat} (negative : Bool) (h : Representable (n * one)) :
    ofInt (if negative then -(n : Int) else n) = .finite (negative && n != 0) ⟨n * one, h⟩ := by
  have habs : (if negative then -(n : Int) else n).natAbs = n := by
    cases negative <;> simp
  have hsign : decide ((if negative then -(n : Int) else n) < 0) = (negative && n != 0) := by
    cases negative with
    | false => exact decide_eq_false (Int.not_lt.2 (Int.natCast_nonneg n))
    | true =>
        rw [if_pos rfl, Bool.true_and, Bool.eq_iff_iff, decide_eq_true_iff, bne_iff_ne]
        omega
  rw [ofInt, habs, hsign]
  exact ofUnits_val _ ⟨n * one, h⟩

theorem ofInt_neg_one :
    ofInt (-1) = .finite true ⟨1 * one, representable_mul_one (by decide)⟩ :=
  ofInt_of_representable true (representable_mul_one (by decide))

/-- Which finite doubles are less than zero. -/
theorem lt_zero_finite (negative : Bool) (magnitude : { units : Nat // Representable units }) :
    (finite negative magnitude).lt zero = (negative && magnitude.val != 0) := by
  cases negative with
  | false => exact decide_eq_false (Int.not_lt.2 (Int.natCast_nonneg magnitude.val))
  | true =>
      rw [Bool.eq_iff_iff]
      simp only [lt, units?, zero, Bool.true_and, decide_eq_true_eq, bne_iff_ne]
      omega

/-- Which finite doubles lie between minus one and zero. -/
theorem isMinusFraction_finite (negative : Bool)
    (magnitude : { units : Nat // Representable units }) :
    (finite negative magnitude).isMinusFraction =
      (negative && magnitude.val != 0 && magnitude.val / one == 0) := by
  have hsmall : magnitude.val / one = 0 ↔ magnitude.val < one := Nat.div_eq_zero_iff_lt one_pos
  rw [isMinusFraction, ofInt_neg_one, lt_zero_finite]
  cases negative with
  | false => rw [Bool.false_and, Bool.and_false, Bool.false_and]
  | true =>
      rw [Bool.eq_iff_iff]
      simp only [lt, units?, Bool.true_and, Bool.and_eq_true, decide_eq_true_eq, bne_iff_ne,
        beq_iff_eq, hsmall]
      omega

/-! ## The integer part of a finite double -/

/-- The integer part of a finite double is the double of an integer, or minus zero. -/
theorem integerPart_eq {x : Double} {i : Int} (h : x.toInt? = some i) :
    x.integerPart = (if x.isMinusFraction then zero.neg else ofInt i) := by
  cases x with
  | nan | infinity => cases h
  | finite negative magnitude =>
      rw [toInt?_finite] at h
      cases h
      rw [integerPart_finite, isMinusFraction_finite,
        ofInt_of_representable negative (representable_truncated magnitude.property)]
      by_cases hwhole : magnitude.val / one = 0
      · cases hsign : negative && magnitude.val != 0 with
        | true => simp [zero, neg, hwhole]
        | false => simp [hwhole]
      · have hzero : magnitude.val ≠ 0 := by
          intro h
          rw [h, Nat.zero_div] at hwhole
          exact hwhole rfl
        rw [beq_eq_false_iff_ne.2 hwhole, bne_iff_ne.2 hwhole, bne_iff_ne.2 hzero, Bool.and_false,
          if_neg Bool.false_ne_true]

theorem integerPart_of_isMinusFraction {x : Double} (h : x.isMinusFraction = true) :
    x.integerPart = zero.neg := by
  cases x with
  | nan => rw [isMinusFraction, ofInt_neg_one] at h; cases h
  | infinity negative => rw [isMinusFraction, ofInt_neg_one] at h; cases negative <;> cases h
  | finite negative magnitude =>
      rw [integerPart_eq (toInt?_finite negative magnitude), if_pos h]

/-- Which finite doubles are within the bound. -/
theorem abs_lt_bound_iff (negative : Bool) (magnitude : { units : Nat // Representable units }) :
    (finite negative magnitude).abs.lt (ofNat Number.integerBound) = true ↔
      magnitude.val / one < Number.integerBound := by
  rw [ofNat_eq (Nat.le_refl _), Nat.div_lt_iff_lt_mul one_pos]
  simp only [abs, lt, units?, decide_eq_true_eq, Int.ofNat_lt]

/-- The integer part of a finite double stands for the integer that truncation leaves. -/
theorem toInt?_integerPart {x : Double} {i : Int} (h : x.toInt? = some i) :
    x.integerPart.toInt? = some i := by
  cases x with
  | nan | infinity => cases h
  | finite negative magnitude =>
      rw [integerPart_finite, toInt?_finite, Nat.mul_div_cancel _ one_pos, signed_integerPart, ← h,
        toInt?_finite]

/-- Taking the integer part once more makes no difference, except to minus zero. -/
theorem integerPart_integerPart {x : Double} (h : x.isMinusFraction = false) :
    x.integerPart.integerPart = x.integerPart := by
  cases x with
  | nan => rfl
  | infinity => rfl
  | finite negative magnitude =>
      rw [isMinusFraction_finite] at h
      have hsign : (negative && magnitude.val != 0 && magnitude.val / one * one != 0) =
          (negative && magnitude.val != 0) := by
        cases hsign : negative && magnitude.val != 0 with
        | false => rfl
        | true =>
            rw [hsign, Bool.true_and, beq_eq_false_iff_ne] at h
            rw [Bool.true_and, bne_iff_ne]
            exact Nat.mul_ne_zero h (Nat.ne_of_gt one_pos)
      rw [integerPart_finite, integerPart_finite]
      simp only [hsign, Nat.mul_div_cancel _ one_pos]

end Double

namespace Number

/-- A double that is an integer is kept as this integer if it is within the bound and not minus
zero. -/
theorem ofDouble_eq_integer_iff {negative : Bool} {n : Nat}
    (h : Double.Representable (n * Double.one)) (i : Int) :
    ofDouble (.finite negative ⟨n * Double.one, h⟩) = .integer i ↔
      (n < integerBound ∧ ¬(n = 0 ∧ negative = true)) ∧
        (if negative then -(n : Int) else n) = i := by
  rw [ofDouble]
  simp only [Nat.mul_mod_left, Nat.mul_div_cancel n Double.one_pos, Double.mul_one_eq_zero_iff,
    true_and]
  split
  · next hkept => simp [hkept]
  · next hfloat => exact ⟨Number.noConfusion, fun hkept => absurd hkept.1 hfloat⟩

end Number

namespace Double

/-- **Integer parts of all doubles.** Not-a-number has the integer part zero, and infinities have
themselves. A finite double has the double of the integer that truncation leaves, unless it lies
between minus one and zero: then it has minus zero. As a Number the integer part is this integer
exactly if the double is below `2 ^ 53` without its sign and does not lie between minus one and
zero. Also exactly if it does not lie there, taking the integer part once more leaves the same
bits. -/
theorem integerPart_spec (x : Double) :
    (match x.toInt? with
      | none => x.integerPart = if x.isNaN then zero else x
      | some i =>
          x.integerPart = (if x.isMinusFraction then zero.neg else ofInt i) ∧
            x.integerPart.toInt? = some i ∧
            (Number.ofDouble x.integerPart = .integer i ↔
              x.abs.lt (ofNat Number.integerBound) = true ∧ x.isMinusFraction = false)) ∧
      (x.integerPart.integerPart.toBits = x.integerPart.toBits ↔ x.isMinusFraction = false) := by
  constructor
  · cases hx : x.toInt? with
    | none =>
        cases x with
        | nan | infinity => rfl
        | finite => rw [toInt?_finite] at hx; cases hx
    | some i =>
        refine ⟨integerPart_eq hx, toInt?_integerPart hx, ?_⟩
        cases x with
        | nan | infinity => cases hx
        | finite negative magnitude =>
            rw [toInt?_finite] at hx
            cases hx
            rw [integerPart_finite, Number.ofDouble_eq_integer_iff, abs_lt_bound_iff,
              isMinusFraction_finite]
            by_cases hzero : magnitude.val = 0
            · simp [hzero]
            · cases negative <;> simp [hzero]
  · constructor
    · intro hbits
      cases hx : x.isMinusFraction with
      | false => rfl
      | true =>
          rw [integerPart_of_isMinusFraction hx] at hbits
          exact absurd hbits (by decide)
    · intro h
      rw [integerPart_integerPart h]

/-- Minus one half has the integer part minus zero, which is not kept as an integer, and which has
zero as its own integer part. -/
theorem integerPart_of_minus_half :
    let x := ofBits 0xbfe0000000000000
    x.toInt? = some 0 ∧ x.integerPart = zero.neg ∧ x.integerPart ≠ ofInt 0 ∧
      Number.ofDouble x.integerPart = .float zero.neg ∧
      x.integerPart.integerPart.toBits ≠ x.integerPart.toBits := by
  decide +kernel

end Double

end EcmaCore
