import EcmaCore.Engine.Convert
import EcmaCore.Proofs.Action
import EcmaCore.Proofs.Number.IntegerPart

/-!
# Words and indices

A word is computed with doubles throughout: truncate, take the remainder by `2 ^ 32`, add
`2 ^ 32` if that is negative, and cut what is there to a word. Truncation rounds nothing, a
remainder of integers is an integer that is smaller than the divisor, and so is the sum. So no
step rounds and the cut takes nothing away: the word is the integer modulo `2 ^ 32`, for doubles
of every size and sign. An index is an integer part that passes a comparison with both ends of
the range, one of them zero, which minus zero passes; again the cut takes nothing away.

## Main results

* `Double.clampNat_remEuclid`: the remainder of an integer, cut to a natural number.
* `Double.toNat_word`: the word of a double is its integer part modulo `2 ^ 32`.
* `Double.index?_integerPart`: which integer parts are indices.
* `Engine.toWord_toIndex_spec`: the conversions of values to words and to indices.
-/

namespace EcmaCore

namespace Double

/-! ## Remainders of integers -/

/-- The remainder of an integer is an integer. -/
theorem rem_integer (negative : Bool) {n m : Nat} (hn : Representable (n * one)) (hpos : 0 < m)
    (hm : m ≤ Number.integerBound) :
    (finite negative ⟨n * one, hn⟩).rem (ofNat m) =
      .finite negative ⟨n % m * one,
        representable_mul_one (Nat.le_trans (Nat.le_of_lt (Nat.mod_lt n hpos)) hm)⟩ := by
  have hunits : m * one ≠ 0 := Nat.ne_of_gt (Nat.mul_pos hpos one_pos)
  rw [ofNat_eq hm]
  simp only [rem, if_neg hunits, Nat.mul_mod_mul_right]
  exact ofUnits_val negative ⟨n % m * one, _⟩

/-- Which integers among doubles are less than zero. -/
theorem lt_zero_integer {negative : Bool} {n : Nat} (hn : Representable (n * one)) :
    (finite negative ⟨n * one, hn⟩).lt zero = true ↔ negative = true ∧ n ≠ 0 := by
  rw [lt_zero_finite, Bool.and_eq_true, bne_iff_ne, ne_eq, mul_one_eq_zero_iff]

theorem add_finite (m n : Bool) (x y : { units : Nat // Representable units }) :
    (finite m x).add (finite n y) =
      ofSigned (m && n)
        ((if m then -(x.val : Int) else x.val) + (if n then -(y.val : Int) else y.val)) :=
  rfl

/-- An integer added to a smaller negative one. -/
theorem add_integer {n m : Nat} (hn : Representable (n * one)) (hlt : n < m)
    (hm : m ≤ Number.integerBound) :
    (finite true ⟨n * one, hn⟩).add (ofNat m) = ofNat (m - n) := by
  have hsum : -((n * one : Nat) : Int) + ((m * one : Nat) : Int) =
      (((m - n) * one : Nat) : Int) := by
    rw [Nat.sub_mul, Int.natCast_sub (Nat.mul_le_mul_right one (Nat.le_of_lt hlt))]
    omega
  have hpos : 0 < (m - n) * one := Nat.mul_pos (by omega) one_pos
  rw [ofNat_eq hm, add_finite, if_pos rfl, if_neg Bool.false_ne_true, hsum, ofSigned,
    if_neg (by omega), decide_eq_false (by omega), Int.natAbs_natCast]
  rfl

theorem clampNat_finite (greatest : Nat) (negative : Bool)
    (magnitude : { units : Nat // Representable units }) :
    (finite negative magnitude).clampNat greatest =
      if negative then 0 else Nat.min (magnitude.val / one) greatest :=
  rfl

/-- An integer within the range is cut to itself. -/
theorem clampNat_integer {negative : Bool} {n greatest : Nat} (hn : Representable (n * one))
    (hsign : negative = true → n = 0) (hle : n ≤ greatest) :
    (finite negative ⟨n * one, hn⟩).clampNat greatest = n := by
  rw [clampNat_finite, Nat.mul_div_cancel n one_pos]
  split
  · next h => exact (hsign h).symm
  · exact Nat.min_eq_left hle

/-- **The remainder of an integer that is not negative**, cut to a natural number. -/
theorem clampNat_remEuclid (negative : Bool) {n m greatest : Nat} (hn : Representable (n * one))
    (hpos : 0 < m) (hm : m ≤ Number.integerBound) (hgreatest : m ≤ greatest + 1) :
    ((((finite negative ⟨n * one, hn⟩).remEuclid (ofNat m)).clampNat greatest : Nat) : Int) =
      (if negative then -(n : Int) else n) % m := by
  have hmod : n % m < m := Nat.mod_lt n hpos
  have habs : (ofNat m).abs = ofNat m := by
    rw [ofNat_eq hm]
    rfl
  rw [remEuclid, rem_integer negative hn hpos hm, habs]
  by_cases hsign : negative = true ∧ n % m ≠ 0
  · -- the remainder is negative, so the divisor is added
    rw [if_pos ((lt_zero_integer _).2 hsign)]
    obtain ⟨rfl, hrest⟩ := hsign
    have hdvd : ¬(m : Int) ∣ n := by
      rw [Int.natCast_dvd_natCast, Nat.dvd_iff_mod_eq_zero]
      exact hrest
    rw [add_integer _ hmod hm, ofNat_eq (by omega),
      clampNat_integer _ Bool.noConfusion (by omega), if_pos rfl, Int.neg_emod, if_neg hdvd,
      Int.natCast_sub (Nat.le_of_lt hmod), Int.natCast_emod, Int.natAbs_natCast]
  · have hzero : negative = true → n % m = 0 := by
      intro hnegative
      exact Decidable.not_not.1 fun hrest => hsign ⟨hnegative, hrest⟩
    rw [if_neg (mt (lt_zero_integer _).1 hsign), clampNat_integer _ hzero (by omega),
      Int.natCast_emod]
    cases negative with
    | false => rw [if_neg Bool.false_ne_true]
    | true =>
        have hdvd : (m : Int) ∣ n := Int.natCast_dvd_natCast.2 (Nat.dvd_of_mod_eq_zero (hzero rfl))
        rw [if_pos rfl, Int.neg_emod, if_pos hdvd, Int.emod_eq_zero_of_dvd hdvd]

/-! ## Words -/

/-- **The word of a double** is its integer part modulo `2 ^ 32`. -/
theorem toNat_word {x : Double} {i : Int} (hx : x.toInt? = some i) :
    (x.word.toNat : Int) = i % 4294967296 := by
  cases x with
  | nan | infinity => cases hx
  | finite negative magnitude =>
      rw [toInt?_finite] at hx
      cases hx
      by_cases hzero : magnitude.val = 0
      · have hword : (finite negative magnitude).word = 0 := by
          rw [word, if_pos (by simp [isZero, hzero])]
        rw [hword, hzero, Nat.zero_div]
        cases negative <;> rfl
      · have hclamp := @clampNat_remEuclid negative _ wordCount 0xffffffff
          (representable_truncated magnitude.property) (by decide) (by decide) (by decide)
        rw [show ((wordCount : Nat) : Int) = 4294967296 from rfl] at hclamp
        rw [word, if_neg (by simp [isNaN, isInfinite, isZero, hzero]), trunc_finite, toUInt32,
          UInt32.toNat_ofNat']
        generalize clampNat _ _ = cut at hclamp ⊢
        have hlt : cut < 2 ^ 32 := by omega
        rw [Nat.mod_eq_of_lt hlt, hclamp]

/-- A count below `2 ^ 32` is its own word. -/
theorem word_ofNat {n : Nat} (h : n < 4294967296) : (ofNat n).word.toNat = n := by
  have hbound : n ≤ Number.integerBound := Nat.le_trans (Nat.le_of_lt h) (by decide)
  have hword := toNat_word (toInt?_ofNat hbound)
  omega

/-! ## Indices -/

theorem le_finite (m n : Bool) (x y : { units : Nat // Representable units }) :
    (finite m x).le (finite n y) = true ↔
      (if m then -(x.val : Int) else x.val) ≤ (if n then -(y.val : Int) else y.val) := by
  have hle : ∀ a b : Int, (decide (a < b) || a == b) = true ↔ a ≤ b := by
    intro a b
    rw [Bool.or_eq_true, decide_eq_true_eq, beq_iff_eq]
    omega
  cases m <;> cases n <;> exact hle _ _

/-- Integers among doubles are compared as integers. -/
theorem le_integer {m n : Bool} {a b : Nat} (ha : Representable (a * one))
    (hb : Representable (b * one)) :
    (finite m ⟨a * one, ha⟩).le (finite n ⟨b * one, hb⟩) = true ↔
      (if m then -(a : Int) else a) ≤ (if n then -(b : Int) else b) := by
  rw [le_finite, signed_units, signed_units]
  exact Int.mul_le_mul_right (Int.natCast_pos.2 one_pos)

/-- An integer is an index if it is at least zero and at most the greatest index. -/
theorem index?_integer {negative : Bool} {n : Nat} (hn : Representable (n * one)) {i : Int}
    (hi : (if negative then -(n : Int) else n) = i) :
    (finite negative ⟨n * one, hn⟩).index? =
      if 0 ≤ i ∧ i ≤ maxIndex then some (UInt64.ofNat i.toNat) else none := by
  have hlow : zero.le (finite negative ⟨n * one, hn⟩) = true ↔ 0 ≤ i := by
    rw [zero_eq, le_integer, hi]
    rfl
  have hhigh : (finite negative ⟨n * one, hn⟩).le (ofNat maxIndex) = true ↔ i ≤ maxIndex := by
    rw [ofNat_eq (by decide), le_integer, hi]
    rfl
  rw [index?]
  by_cases h : 0 ≤ i ∧ i ≤ maxIndex
  · -- within the range the sign is that of a zero, so the cut takes nothing away
    have hmax : (maxIndex : Int) = 9007199254740991 := rfl
    have hsign : negative = true → n = 0 := by
      rintro rfl
      rw [if_pos rfl] at hi
      omega
    have hnat : n = i.toNat := by
      cases negative with
      | false => rw [if_neg Bool.false_ne_true] at hi; omega
      | true => rw [if_pos rfl] at hi; omega
    rw [if_pos h, if_pos (by rw [Bool.and_eq_true]; exact ⟨hlow.2 h.1, hhigh.2 h.2⟩), toUInt64,
      clampNat_integer hn hsign (by omega), hnat]
  · rw [if_neg h, if_neg fun hle => h ?_]
    rw [Bool.and_eq_true] at hle
    exact ⟨hlow.1 hle.1, hhigh.1 hle.2⟩

theorem index?_nan : nan.integerPart.index? = some 0 := by
  show zero.index? = some 0
  rw [zero_eq, index?_integer _ rfl]
  rfl

theorem index?_infinity (negative : Bool) : (infinity negative).integerPart.index? = none := by
  have hrange :
      (zero.le (infinity negative) && (infinity negative).le (ofNat maxIndex)) = false := by
    rw [ofNat_eq (by decide)]
    cases negative <;> rfl
  show (infinity negative).index? = none
  rw [index?, hrange, if_neg Bool.false_ne_true]

/-- **An integer part is an index** if it is at least zero and at most the greatest index. -/
theorem index?_integerPart {x : Double} {i : Int} (hx : x.toInt? = some i) :
    x.integerPart.index? = if 0 ≤ i ∧ i ≤ maxIndex then some (UInt64.ofNat i.toNat) else none := by
  cases x with
  | nan | infinity => cases hx
  | finite negative magnitude =>
      rw [toInt?_finite] at hx
      rw [integerPart_finite]
      exact index?_integer _ ((signed_integerPart negative _).trans (Option.some.inj hx))

/-! ## What the conversions of values have to give -/

/-- The word that a double has: the one that differs from its integer part by a multiple of
`2 ^ 32`, and zero if there is no integer part. -/
def HasWord (x : Double) (k : UInt32) : Prop :=
  match x.toInt? with
  | some i => (4294967296 : Int) ∣ i - k.toNat
  | none => k = 0

/-- The index that a double has: its integer part, if it is at most `2 ^ 53 - 1`, and zero for
not-a-number. -/
def HasIndex (x : Double) (k : UInt64) : Prop :=
  x = .nan ∧ k = 0 ∨ x.toInt? = some (k.toNat : Int) ∧ k.toNat ≤ 9007199254740991

/-- A double has exactly one word. -/
theorem hasWord_iff (x : Double) (k : UInt32) : x.HasWord k ↔ k = x.word := by
  unfold HasWord
  cases hx : x.toInt? with
  | none =>
      have hword : x.word = 0 := by
        cases x with
        | nan | infinity => rfl
        | finite => rw [toInt?_finite] at hx; cases hx
      rw [hword]
  | some i =>
      have hword := toNat_word hx
      have hlt := k.toNat_lt
      dsimp only
      rw [← UInt32.toNat_inj]
      omega

/-- A double has at most the index that its integer part is. -/
theorem hasIndex_iff (x : Double) (k : UInt64) : x.HasIndex k ↔ x.integerPart.index? = some k := by
  unfold HasIndex
  cases hx : x.toInt? with
  | none =>
      cases x with
      | nan => simp [index?_nan, eq_comm]
      | infinity negative => simp [index?_infinity negative]
      | finite => rw [toInt?_finite] at hx; cases hx
  | some i =>
      have hnan : x ≠ .nan := by
        rintro rfl
        cases hx
      have hmax : (maxIndex : Int) = 9007199254740991 := rfl
      have hlt := k.toNat_lt
      rw [index?_integerPart hx, hmax]
      simp only [hnan, false_and, false_or, Option.some.injEq]
      split
      · next h =>
        rw [Option.some.injEq, ← UInt64.toNat_inj, UInt64.toNat_ofNat', Nat.mod_eq_of_lt (by omega)]
        omega
      · next h =>
        simp only [reduceCtorEq, iff_false]
        omega

end Double

namespace Engine

variable {σ : Type} {w w' : World σ} {v : Value} {x : Double}

/-! ## Conversions of values -/

theorem toWord_of_ok {E : Engine σ} (h : E.toNumber v w = .ok x w') :
    E.toWord v w = .ok x.word w' := by
  rw [toWord, Action.bind_ok h]
  rfl

/-- A value other than undefined is converted to an index by way of a number. -/
theorem toIndex_of_ok {E : Engine σ} (hv : v.isUndefined = false)
    (h : E.toNumber v w = .ok x w') :
    E.toIndex v w =
      match x.integerPart.index? with
      | some index => .ok index w'
      | none => .error (.thrown (.invalidIndex x.integerPart.toText)) w' := by
  have hinteger : E.toIntegerOrInfinity v w = .ok x.integerPart w' := by
    rw [toIntegerOrInfinity, Action.bind_ok h]
    rfl
  rw [toIndex, hv]
  refine (Action.bind_ok hinteger).trans ?_
  cases x.integerPart.index? <;> rfl

/-- **Conversions to words and to indices.** A value whose conversion to a number fails has
neither. The word of any other value is the one that differs from the integer part of its number
by a multiple of `2 ^ 32`, and zero if the number is infinite or none. Its index is this integer
part itself, if that is from zero to `2 ^ 53 - 1`, and zero if the number is none; for every other
number the conversion is a range error. Undefined has the index zero. -/
theorem toWord_toIndex_spec (E : Engine σ) (v : Value) (w : World σ) :
    E.toIndex .undefined w = .ok 0 w ∧
      match E.toNumber v w with
      | .error f w' => E.toWord v w = .error f w' ∧ E.toIndex v w = .error f w'
      | .ok x w' =>
          (∃ k, E.toWord v w = .ok k w' ∧ ∀ m, x.HasWord m ↔ m = k) ∧
            ((∃ k, E.toIndex v w = .ok k w' ∧ ∀ m, x.HasIndex m ↔ m = k) ∨
              ∃ e : Error, E.toIndex v w = .error (.thrown e) w' ∧ e.kind = .range ∧
                ∀ m, ¬x.HasIndex m) := by
  refine ⟨rfl, ?_⟩
  cases hnumber : E.toNumber v w with
  | error f w' =>
      have hv : v.isUndefined = false := by
        cases v with
        | undefined => cases hnumber
        | _ => rfl
      have hinteger : E.toIntegerOrInfinity v w = .error f w' := by
        rw [toIntegerOrInfinity, Action.bind_error hnumber]
      refine ⟨Action.bind_error hnumber, ?_⟩
      rw [toIndex, hv]
      exact Action.bind_error hinteger
  | ok x w' =>
      refine ⟨⟨x.word, toWord_of_ok hnumber, x.hasWord_iff⟩, ?_⟩
      cases hv : v.isUndefined with
      | true =>
          -- the number of undefined is none, and its index is zero without being asked for
          cases v with
          | undefined =>
              cases hnumber
              refine .inl ⟨0, rfl, fun m => ?_⟩
              rw [Double.hasIndex_iff, Double.index?_nan, Option.some.injEq, eq_comm]
          | _ => cases hv
      | false =>
          rw [toIndex_of_ok hv hnumber]
          cases hindex : x.integerPart.index? with
          | some index =>
              refine .inl ⟨index, rfl, fun m => ?_⟩
              rw [Double.hasIndex_iff, hindex, Option.some.injEq, eq_comm]
          | none =>
              refine .inr ⟨_, rfl, rfl, fun m hm => ?_⟩
              rw [Double.hasIndex_iff, hindex] at hm
              cases hm

end Engine

end EcmaCore
