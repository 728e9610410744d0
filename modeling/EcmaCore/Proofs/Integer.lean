import EcmaCore.Number.Integer
import EcmaCore.Proofs.Double

/-!
# Integers among doubles

A double holds every integer up to `2 ^ 53` in absolute value exactly. So integers of this
size come back from the conversions between integers, doubles and Numbers as they went in,
and what is left of one when another is taken away from it is exact as long as it is
positive. How great the other one is does not matter: a double that is no longer exact has
still not become smaller than `2 ^ 53`.

Past the bound every double is an integer, so truncation never rounds.

## Main results

* `Double.ofNat_eq`, `Double.toInt?_ofNat`, `Number.ofDouble_ofNat`: integers of this size in
  doubles and Numbers.
* `Double.trunc_finite`: truncation cuts the count of units.
* `Double.integerPart_finite`: the integer part of a finite double, with its sign.
* `Double.max_sub_ofNat`: an integer less a count, at least zero.
-/

namespace EcmaCore

namespace Double

/-! ## Exact integers -/

theorem shiftLeft_eq_mul (n s : Nat) : n <<< s = n * 1 <<< s := by
  rw [Nat.shiftLeft_eq, Nat.one_shiftLeft]

theorem one_shiftLeft_dvd {m n : Nat} (h : m ≤ n) : 1 <<< m ∣ 1 <<< n := by
  rw [Nat.one_shiftLeft, Nat.one_shiftLeft]
  exact Nat.pow_dvd_pow 2 h

theorem one_shiftLeft_pos (n : Nat) : 0 < 1 <<< n := by
  rw [Nat.one_shiftLeft]
  exact Nat.two_pow_pos n

theorem one_shiftLeft_lt {m n : Nat} (h : m < n) : 1 <<< m < 1 <<< n := by
  rw [Nat.one_shiftLeft, Nat.one_shiftLeft]
  exact Nat.pow_lt_pow_right Nat.one_lt_two h

/-- The position of the leading bit of a number that is at least a power of two. -/
theorem le_log2 {s n : Nat} (h : 1 <<< s ≤ n) : s ≤ n.log2 := by
  have hpos : 0 < n := Nat.lt_of_lt_of_le (one_shiftLeft_pos s) h
  rw [Nat.one_shiftLeft] at h
  exact (Nat.le_log2 (Nat.ne_of_gt hpos)).2 h

theorem one_pos : 0 < one :=
  one_shiftLeft_pos 1074

theorem integerBound_mul_one : Number.integerBound * one = 1 <<< 1127 := by
  rw [one, ← shiftLeft_eq_mul, Number.integerBound, ← Nat.shiftLeft_add]

/-- A double can have the count of units of an integer up to the bound. -/
theorem representable_mul_one {n : Nat} (h : n ≤ Number.integerBound) :
    Representable (n * one) := by
  constructor
  · have hle : n * one ≤ Number.integerBound * one := Nat.mul_le_mul_right one h
    rw [integerBound_mul_one] at hle
    exact Nat.lt_of_le_of_lt hle (one_shiftLeft_lt (by omega))
  · have hdvd := spacing_shiftLeft_dvd (s := 1074) h
    rwa [shiftLeft_eq_mul] at hdvd

/-- The signed count of units of an integer. -/
theorem signed_units (negative : Bool) (n : Nat) :
    (if negative then -((n * one : Nat) : Int) else (n * one : Nat)) =
      (if negative then -(n : Int) else n) * one := by
  split
  · rw [Int.natCast_mul, Int.neg_mul]
  · rw [Int.natCast_mul]

theorem ofNat_eq {n : Nat} (h : n ≤ Number.integerBound) :
    ofNat n = .finite false ⟨n * one, representable_mul_one h⟩ :=
  ofUnits_val false ⟨n * one, representable_mul_one h⟩

/-- Zero is an integer. -/
theorem zero_eq : zero = .finite false ⟨0 * one, representable_mul_one (Nat.zero_le _)⟩ := by
  simp only [zero, Nat.zero_mul]

theorem ofNat_zero : ofNat 0 = zero :=
  (ofNat_eq (Nat.zero_le _)).trans zero_eq.symm

/-- Truncating a finite double cuts its count of units. -/
theorem toInt?_finite (negative : Bool) (magnitude : { units : Nat // Representable units }) :
    (finite negative magnitude).toInt? =
      some (if negative then -((magnitude.val / one : Nat) : Int)
        else (magnitude.val / one : Nat)) := by
  cases negative with
  | false => rfl
  | true =>
      show some ((-(magnitude.val : Int)).tdiv one) = _
      rw [Int.neg_tdiv, ← Int.ofNat_tdiv]
      rfl

/-- An integer up to the bound comes back from its double. -/
theorem toInt?_ofNat {n : Nat} (h : n ≤ Number.integerBound) :
    (ofNat n).toInt? = some (n : Int) := by
  rw [ofNat_eq h, toInt?_finite]
  show some ((n * one / one : Nat) : Int) = some (n : Int)
  rw [Nat.mul_div_cancel n one_pos]

/-! ## Integer parts -/

/-- From the bound on a double is an integer. -/
theorem one_dvd_of_bound_le {units : Nat} (h : Representable units)
    (hbound : Number.integerBound * one ≤ units) : one ∣ units := by
  rw [integerBound_mul_one] at hbound
  have hlog : 1127 ≤ units.log2 := le_log2 hbound
  have hspacing : one ∣ spacing units := one_shiftLeft_dvd (by omega)
  exact Nat.dvd_trans hspacing h.2

/-- A double can have the count of units that truncation leaves of one. -/
theorem representable_truncated {units : Nat} (h : Representable units) :
    Representable (units / one * one) := by
  by_cases hsmall : units / one < Number.integerBound
  · exact representable_mul_one (Nat.le_of_lt hsmall)
  · have hbound : Number.integerBound * one ≤ units :=
      (Nat.le_div_iff_mul_le one_pos).1 (Nat.le_of_not_lt hsmall)
    rwa [Nat.div_mul_cancel (one_dvd_of_bound_le h hbound)]

/-- **Truncation cuts the count of units** and rounds nothing. -/
theorem trunc_finite (negative : Bool) (magnitude : { units : Nat // Representable units }) :
    (finite negative magnitude).trunc =
      .finite negative ⟨magnitude.val / one * one, representable_truncated magnitude.property⟩ :=
  ofUnits_val negative ⟨magnitude.val / one * one, representable_truncated magnitude.property⟩

/-- **The integer part of a finite double** keeps its sign, unless the double is a zero. -/
theorem integerPart_finite (negative : Bool) (magnitude : { units : Nat // Representable units }) :
    (finite negative magnitude).integerPart =
      .finite (negative && magnitude.val != 0)
        ⟨magnitude.val / one * one, representable_truncated magnitude.property⟩ := by
  by_cases hzero : magnitude.val = 0
  · rw [integerPart, if_pos (by simp [isZero, hzero])]
    simp only [zero, hzero, bne_self_eq_false, Bool.and_false, Nat.zero_div, Nat.zero_mul]
  · have hsign : (negative && magnitude.val != 0) = negative := by simp [hzero]
    rw [integerPart, if_neg (by simp [isNaN, isZero, hzero]), trunc_finite, hsign]

/-- The sign that the integer part of a zero loses makes no difference to the integer. -/
theorem signed_integerPart (negative : Bool) (units : Nat) :
    (if negative && units != 0 then -((units / one : Nat) : Int) else (units / one : Nat)) =
      if negative then -((units / one : Nat) : Int) else (units / one : Nat) := by
  by_cases hzero : units = 0
  · simp [hzero]
  · simp [hzero]

/-- The integer part of a double within the bound is a double with the sign of the integer. -/
theorem exists_integerPart {x : Double} {i : Int} (hx : x.toInt? = some i)
    (hi : i.natAbs < Number.integerBound) :
    ∃ negative, x.integerPart =
        .finite negative ⟨i.natAbs * one, representable_mul_one (Nat.le_of_lt hi)⟩ ∧
      i = if negative then -(i.natAbs : Int) else i.natAbs := by
  cases x with
  | nan | infinity => cases hx
  | finite negative magnitude =>
      rw [toInt?_finite] at hx
      have hsigned := Option.some.inj hx
      have hwhole : magnitude.val / one = i.natAbs := by
        rw [← hsigned]
        cases negative with
        | false => exact (Int.natAbs_natCast _).symm
        | true => exact ((Int.natAbs_neg _).trans (Int.natAbs_natCast _)).symm
      refine ⟨negative && magnitude.val != 0, ?_, ?_⟩
      · rw [integerPart_finite]
        exact congrArg (finite _) (Subtype.ext (congrArg (· * one) hwhole))
      · rw [← hwhole, signed_integerPart]
        exact hsigned.symm

/-! ## Differences -/

/-- What is not negative when it is compared with zero is not negative. -/
theorem isNegative_max_zero (x : Double) : (x.max zero).isNegative = false := by
  unfold max
  split
  · next hlt =>
    cases x with
    | nan => rfl
    | infinity negative =>
        have hsign : (!negative) = true := hlt
        show negative = false
        simpa using hsign
    | finite negative magnitude =>
        cases negative with
        | false => rfl
        | true =>
            have hunits : (0 : Int) < -(magnitude.val : Int) := of_decide_eq_true hlt
            omega
  · rfl

theorem lt_zero_ofUnits_true (units : Nat) : lt zero (ofUnits true units) = false := by
  unfold ofUnits ofRatio
  split
  · refine decide_eq_false (Int.not_lt.2 ?_)
    show -((roundUnits units 1 : Nat) : Int) ≤ 0
    omega
  · rfl

/-- A difference that is not positive is zero at least. -/
theorem max_zero_of_nonpos {negativeZero : Bool} {units : Int} (h : units ≤ 0) :
    (ofSigned negativeZero units).max zero = zero := by
  have hlt : lt zero (ofSigned negativeZero units) = false := by
    unfold ofSigned
    by_cases hzero : units = 0
    · rw [if_pos hzero, hzero, Int.natAbs_zero]
      cases negativeZero with
      | false =>
          have hunits : ofUnits false 0 = zero := ofUnits_val false ⟨0, _⟩
          rw [hunits]
          rfl
      | true => exact lt_zero_ofUnits_true _
    · rw [if_neg hzero, decide_eq_true (by omega)]
      exact lt_zero_ofUnits_true _
  rw [max, hlt, if_neg Bool.false_ne_true]

/-- A positive difference of integers within the bound is exact. -/
theorem max_zero_of_pos {negativeZero : Bool} {n : Nat} (hpos : 0 < n)
    (h : n ≤ Number.integerBound) :
    (ofSigned negativeZero ((n : Int) * one)).max zero = ofNat n := by
  have hunits : 0 < n * one := Nat.mul_pos hpos one_pos
  have hsigned : ofSigned negativeZero ((n : Int) * one) = ofNat n := by
    rw [← Int.natCast_mul, ofSigned, if_neg (by omega), decide_eq_false (by omega),
      Int.natAbs_natCast]
    rfl
  have hlt : lt zero (ofNat n) = true := by
    rw [ofNat_eq h]
    refine decide_eq_true ?_
    show (0 : Int) < ((n * one : Nat) : Int)
    omega
  rw [hsigned, max, hlt, if_pos rfl]

/-- The double of a natural number past the bound is infinite or past the bound. -/
theorem ofNat_of_bound_le {n : Nat} (h : Number.integerBound ≤ n) :
    ofNat n = .infinity false ∨
      ∃ magnitude, ofNat n = .finite false magnitude ∧
        Number.integerBound * one ≤ magnitude.val := by
  have hround := roundUnits_mono (Nat.mul_le_mul_right one h)
  rw [roundUnits_of_representable (representable_mul_one (Nat.le_refl _))] at hround
  unfold ofNat ofUnits ofRatio
  split
  · exact .inr ⟨_, rfl, hround⟩
  · exact .inl rfl

theorem sub_finite (negative : Bool) (x y : { units : Nat // Representable units }) :
    (finite negative x).sub (finite false y) =
      ofSigned (negative && true) ((if negative then -(x.val : Int) else x.val) + -(y.val : Int)) :=
  rfl

/-- **An integer less a count, but at least zero**, is the difference of the integers, but at least
zero, however great the count is. -/
theorem max_sub_ofNat {x : Double} {i : Int} (hx : x.toInt? = some i)
    (hi : i.natAbs < Number.integerBound) (n : Nat) :
    (x.integerPart.sub (.ofNat n)).max .zero = ofNat (i - n).toNat := by
  obtain ⟨negative, hpart, hsign⟩ := exists_integerPart hx hi
  have hunits : (if negative then -((i.natAbs * one : Nat) : Int) else (i.natAbs * one : Nat)) =
      i * one :=
    (signed_units negative i.natAbs).trans (congrArg (· * (one : Int)) hsign.symm)
  rw [hpart]
  by_cases hn : n ≤ Number.integerBound
  · rw [ofNat_eq hn, sub_finite, hunits, Int.natCast_mul, ← Int.sub_eq_add_neg, ← Int.sub_mul]
    by_cases hpos : 0 < i - n
    · have hleft : ((i - n).toNat : Int) = i - n := Int.toNat_of_nonneg (Int.le_of_lt hpos)
      rw [← hleft]
      exact max_zero_of_pos (by omega) (by omega)
    · have hle : (i - n) * one ≤ 0 :=
        Int.mul_nonpos_of_nonpos_of_nonneg (Int.not_lt.1 hpos) (Int.natCast_nonneg _)
      rw [max_zero_of_nonpos hle, Int.toNat_of_nonpos (Int.not_lt.1 hpos), ofNat_zero]
  · rw [Int.toNat_of_nonpos (by omega), ofNat_zero]
    rcases ofNat_of_bound_le (Nat.le_of_not_le hn) with hinfinite | ⟨magnitude, hfinite, hgreat⟩
    · rw [hinfinite]
      rfl
    · have hle : i * one ≤ (Number.integerBound : Int) * one :=
        Int.mul_le_mul_of_nonneg_right (by omega) (Int.natCast_nonneg _)
      have hgreat' : (Number.integerBound : Int) * one ≤ magnitude.val := by
        rw [← Int.natCast_mul]
        exact Int.ofNat_le.2 hgreat
      rw [hfinite, sub_finite, hunits]
      exact max_zero_of_nonpos (by omega)

end Double

namespace Number

/-- An integer below the bound is kept as an integer. -/
theorem ofDouble_ofNat {n : Nat} (h : n < integerBound) : ofDouble (.ofNat n) = .integer n := by
  rw [Double.ofNat_eq (Nat.le_of_lt h), ofDouble]
  simp only [Nat.mul_mod_left, Nat.mul_div_cancel n Double.one_pos, h, Bool.false_eq_true,
    and_false, not_false_eq_true, and_self, if_true, if_false]

end Number

end EcmaCore
