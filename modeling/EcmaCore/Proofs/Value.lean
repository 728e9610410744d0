import EcmaCore.Value

/-!
# Sameness of values

`Value.sameValue` compares values by what they stand for: a number by its double,
in whichever form it is kept, and every other value by itself. So it is equality
of `Value.content`, and an equivalence.

## Main results

* `sameNumber_iff`: sameness of doubles that tells the zeros apart is equality.
* `sameValue_iff`: sameness of values is equality of their contents.
-/

namespace EcmaCore

namespace Double

/-- Two finite doubles that are not both zero are numerically equal only if they are the same. -/
theorem eq_finite_iff {m n : Bool} {a b : { units : Nat // Representable units }}
    (h : ¬(a.val = 0 ∧ b.val = 0)) :
    (finite m a).eq (finite n b) = true ↔ (finite m a : Double) = finite n b := by
  cases m <;> cases n <;> simp [eq, units?, Subtype.ext_iff] <;> omega

end Double

namespace Value

/-- Sameness of doubles that tells the zeros apart is equality. -/
theorem sameNumber_iff (a b : Double) : sameNumber true a b = true ↔ a = b := by
  cases a with
  | nan => cases b <;> simp [sameNumber, Double.isNaN, Double.isZero, Double.eq, Double.units?]
  | infinity m =>
      cases b <;> simp [sameNumber, Double.isNaN, Double.isZero, Double.eq, Double.units?]
  | finite m x =>
      cases b with
      | nan => simp [sameNumber, Double.isNaN, Double.isZero, Double.eq, Double.units?]
      | infinity n => simp [sameNumber, Double.isNaN, Double.isZero, Double.eq, Double.units?]
      | finite n y =>
          by_cases hzero : x.val = 0 ∧ y.val = 0
          · simp [sameNumber, Double.isNaN, Double.isZero, Double.isNegative, hzero,
              Subtype.ext_iff]
          · rw [← Double.eq_finite_iff hzero]
            simp [sameNumber, Double.isNaN, Double.isZero, hzero]

/-- What sameness of values looks at: the double of a number, and every other value itself. -/
def content : Value → Value ⊕ Double
  | number n => .inr n.toDouble
  | v => .inl v

/-- Sameness of values is equality of their contents. -/
theorem sameValue_iff (a b : Value) : a.sameValue b = true ↔ a.content = b.content := by
  cases a with
  | number m =>
      cases b with
      | number n => simp [sameValue, content, sameNumber_iff]
      | _ => simp [sameValue, content, sameNonNumber]
  | _ => cases b <;> simp [sameValue, content, sameNonNumber]

@[simp] theorem sameValue_refl (v : Value) : v.sameValue v = true :=
  (sameValue_iff v v).2 rfl

theorem sameValue_comm (u v : Value) : u.sameValue v = v.sameValue u := by
  rw [Bool.eq_iff_iff, sameValue_iff, sameValue_iff]
  exact eq_comm

theorem sameValue_trans {u v w : Value} (huv : u.sameValue v = true) (hvw : v.sameValue w = true) :
    u.sameValue w = true :=
  (sameValue_iff u w).2 (((sameValue_iff u v).1 huv).trans ((sameValue_iff v w).1 hvw))

theorem sameValue_congr {v w : Value} (h : v.sameValue w = true) (u : Value) :
    u.sameValue v = u.sameValue w := by
  rw [Bool.eq_iff_iff, sameValue_iff, sameValue_iff, (sameValue_iff v w).1 h]

end Value

end EcmaCore
