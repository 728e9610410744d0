import EcmaCore.Proofs.Double
import EcmaCore.Proofs.Number.Bits
import EcmaCore.Proofs.Value

/-!
# Normal forms and the relations of equality

The normal form of a double stands for the double, so no two doubles share one and no double has
two. A Number in normal form is kept as a double only if it is finite, and if it is a zero then
it is minus zero; so comparing forms, where doubles are compared numerically, never equates
different numbers. Hence for values in normal form equality by form, sameness and identity are
one relation. Sameness without the sign of zero equates the two zeros besides, and strict
equality is that relation without not-a-number.

## Main results

* `Number.ofDouble_toDouble`: a Number in normal form is the normal form of what it stands for.
* `Number.sameForm_iff`: forms are the same exactly if the Numbers are.
* `Double.eq_iff`, `Value.sameNumber_false_iff`: numerical equality of doubles, and sameness
  without the sign of zero.
* `Value.equality_spec`: the four relations of values.
-/

namespace EcmaCore

namespace Number

/-- A Number in the form that some double has. -/
def IsNormal (n : Number) : Prop := ∃ x, n = .ofDouble x

variable {m n : Number}

/-- A Number in normal form is the normal form of what it stands for. -/
theorem ofDouble_toDouble (h : n.IsNormal) : ofDouble n.toDouble = n := by
  obtain ⟨x, rfl⟩ := h
  rw [toDouble_ofDouble]

theorem toDouble_inj (hm : m.IsNormal) (hn : n.IsNormal) : m.toDouble = n.toDouble ↔ m = n := by
  constructor
  · intro h
    rw [← ofDouble_toDouble hm, h, ofDouble_toDouble hn]
  · exact congrArg toDouble

/-- A Number in normal form that is kept as a double is finite, and only minus zero is a zero. -/
theorem exists_finite_of_float {x : Double} (h : (float x).IsNormal) :
    ∃ negative magnitude,
      x = .finite negative magnitude ∧ (magnitude.val = 0 → negative = true) := by
  have hform : ofDouble x = .float x := ofDouble_toDouble h
  cases x with
  | nan => cases hform
  | infinity negative => cases negative <;> cases hform
  | finite negative magnitude =>
      refine ⟨negative, magnitude, rfl, fun hzero => ?_⟩
      cases negative with
      | true => rfl
      | false =>
          have hinteger : ofDouble (.finite false magnitude) = .integer 0 := by
            simp [ofDouble, hzero, integerBound]
          rw [hinteger] at hform
          cases hform

/-- **Forms are the same exactly if the Numbers are.** -/
theorem sameForm_iff (hm : m.IsNormal) (hn : n.IsNormal) : m.sameForm n = true ↔ m = n := by
  cases m with
  | float x =>
      cases n with
      | float y =>
          obtain ⟨a, p, rfl, ha⟩ := exists_finite_of_float hm
          obtain ⟨b, q, rfl, hb⟩ := exists_finite_of_float hn
          rw [float.injEq]
          by_cases hzero : p.val = 0 ∧ q.val = 0
          · obtain rfl := ha hzero.1
            obtain rfl := hb hzero.2
            have hmagnitude : p = q := Subtype.ext (hzero.1.trans hzero.2.symm)
            subst hmagnitude
            simp [sameForm, Double.eq, Double.units?]
          · exact Double.eq_finite_iff hzero
      | _ => simp [sameForm]
  | _ => cases n <;> simp [sameForm]

end Number

namespace Double

/-- Doubles are numerically equal if they are the same number or both zeros. -/
theorem eq_iff (a b : Double) :
    a.eq b = true ↔ (a = b ∧ a.isNaN = false) ∨ (a.isZero = true ∧ b.isZero = true) := by
  cases a with
  | nan => simp [eq, units?, isNaN, isZero]
  | infinity m => cases b <;> simp [eq, units?, isNaN, isZero]
  | finite m x =>
      cases b with
      | nan | infinity => simp [eq, units?, isZero]
      | finite n y =>
          by_cases hzero : x.val = 0 ∧ y.val = 0
          · cases m <;> cases n <;> simp [eq, units?, isZero, hzero]
          · rw [eq_finite_iff hzero]
            simp [isNaN, isZero, hzero]

theorem isNaN_of_isZero {a : Double} (h : a.isZero = true) : a.isNaN = false := by
  cases a with
  | nan => cases h
  | infinity | finite => rfl

theorem isNaN_iff (a : Double) : a.isNaN = true ↔ a = nan := by
  cases a <;> simp [isNaN]

end Double

namespace Value

/-- Sameness of doubles that does not tell the zeros apart. -/
theorem sameNumber_false_iff (a b : Double) :
    sameNumber false a b = true ↔ a = b ∨ (a.isZero = true ∧ b.isZero = true) := by
  rw [sameNumber]
  split
  · next hnan =>
    rw [Bool.and_eq_true, Double.isNaN_iff, Double.isNaN_iff] at hnan
    simp [hnan.1, hnan.2]
  · next hnan =>
    split
    · next hzero =>
      rw [Bool.and_eq_true] at hzero
      simp [hzero]
    · rw [Double.eq_iff]
      refine or_congr_left (and_iff_left_of_imp ?_)
      rintro rfl
      simpa using hnan

/-- Whether a value is one of the two zeros. -/
def isZero : Value → Bool
  | number n => n.toDouble.isZero
  | _ => false

/-- Whether a value is the Number that is none. -/
def isNaN : Value → Bool
  | number n => n.toDouble.isNaN
  | _ => false

/-- A value whose Number, if it is one, is in normal form. -/
def IsNormal (v : Value) : Prop := ∀ n, v = number n → n.IsNormal

variable {a b c : Value}

/-! ## The relations of values -/

/-- **Equality by form is identity** for values in normal form. -/
theorem sameForm_iff (ha : a.IsNormal) (hb : b.IsNormal) : a.sameForm b = true ↔ a = b := by
  cases a with
  | number m =>
      cases b with
      | number n =>
          rw [number.injEq]
          exact Number.sameForm_iff (ha m rfl) (hb n rfl)
      | _ => simp [sameForm, sameNonNumber]
  | _ => cases b <;> simp [sameForm, sameNonNumber]

/-- **Sameness is identity** for values in normal form. -/
theorem sameValue_iff_eq (ha : a.IsNormal) (hb : b.IsNormal) : a.sameValue b = true ↔ a = b := by
  rw [sameValue_iff]
  cases a with
  | number m =>
      cases b with
      | number n =>
          simp only [content, Sum.inr.injEq, number.injEq]
          exact Number.toDouble_inj (ha m rfl) (hb n rfl)
      | _ => simp [content]
  | _ => cases b <;> simp [content]

theorem isZero_eq (h : a.sameValue b = true) : a.isZero = b.isZero := by
  rw [sameValue_iff] at h
  cases a <;> cases b <;> simp_all [content, isZero]

/-- Sameness that equates the zeros is sameness, or both values are zeros. -/
theorem sameValueZero_iff (a b : Value) :
    a.sameValueZero b = true ↔ a.sameValue b = true ∨ (a.isZero = true ∧ b.isZero = true) := by
  cases a with
  | number m =>
      cases b with
      | number n =>
          simp only [sameValueZero, sameValue, isZero, sameNumber_iff, sameNumber_false_iff]
      | _ => simp [sameValueZero, sameValue, sameNonNumber, isZero]
  | _ => cases b <;> simp [sameValueZero, sameValue, sameNonNumber, isZero]

/-- Strict equality is sameness that equates the zeros, of values other than not-a-number. -/
theorem strictlyEqual_iff (a b : Value) :
    a.strictlyEqual b = true ↔
      a.sameValueZero b = true ∧ a.isNaN = false ∧ b.isNaN = false := by
  cases a with
  | number m =>
      cases b with
      | number n =>
          simp only [strictlyEqual, sameValueZero, isNaN, Double.eq_iff, sameNumber_false_iff]
          constructor
          · rintro (⟨heq, hnan⟩ | ⟨hm, hn⟩)
            · exact ⟨.inl heq, hnan, heq ▸ hnan⟩
            · exact ⟨.inr ⟨hm, hn⟩, Double.isNaN_of_isZero hm, Double.isNaN_of_isZero hn⟩
          · rintro ⟨heq | hzero, hnan, -⟩
            · exact .inl ⟨heq, hnan⟩
            · exact .inr hzero
      | _ => simp [strictlyEqual, sameValueZero, sameNonNumber]
  | _ => cases b <;> simp [strictlyEqual, sameValueZero, sameNonNumber, isNaN]

theorem sameValue_equivalence : Equivalence fun a b : Value => a.sameValue b = true where
  refl := sameValue_refl
  symm h := (sameValue_comm _ _).trans h
  trans := sameValue_trans

theorem sameValueZero_equivalence : Equivalence fun a b : Value => a.sameValueZero b = true where
  refl a := (sameValueZero_iff a a).2 (.inl (sameValue_refl a))
  symm {a b} h := by
    rw [sameValueZero_iff, sameValue_comm, and_comm, ← sameValueZero_iff]
    exact h
  trans {a b c} hab hbc := by
    rw [sameValueZero_iff] at hab hbc ⊢
    rcases hab with hab | ⟨ha, hb⟩
    · rcases hbc with hbc | ⟨hb, hc⟩
      · exact .inl (sameValue_trans hab hbc)
      · exact .inr ⟨(isZero_eq hab).trans hb, hc⟩
    · rcases hbc with hbc | ⟨-, hc⟩
      · exact .inr ⟨ha, (isZero_eq hbc).symm.trans hb⟩
      · exact .inr ⟨ha, hc⟩

/-- **Normal forms and the relations of equality.** Normal forms give every double back, with the
sign of a zero and in the same bits, except that the patterns of not-a-number become one; and what
a normal form stands for has this normal form. So for values in normal form equality by form,
sameness and identity are one. Sameness that equates the zeros is sameness, or both values are
zeros, and strict equality is that without not-a-number. Both kinds of sameness are equivalences. -/
theorem equality_spec (ha : a.IsNormal) (hb : b.IsNormal) :
    ((∀ x : Double, (Number.ofDouble x).toDouble = x) ∧
        (∀ bits, (Number.ofDouble (.ofBits bits)).toDouble.toBits =
          if (Double.ofBits bits).isNaN then Double.nan.toBits else bits) ∧
        ∀ n : Number, n.IsNormal ↔ Number.ofDouble n.toDouble = n) ∧
      a.sameForm b = a.sameValue b ∧
      (a.sameValue b = true ↔ a = b) ∧
      (a.sameValueZero b = true ↔ a.sameValue b = true ∨ (a.isZero = true ∧ b.isZero = true)) ∧
      (a.strictlyEqual b = true ↔
        a.sameValueZero b = true ∧ a.isNaN = false ∧ b.isNaN = false) ∧
      (Equivalence fun u v : Value => u.sameValue v = true) ∧
      Equivalence fun u v : Value => u.sameValueZero v = true := by
  refine ⟨⟨Number.toDouble_ofDouble, fun bits => ?_, fun n => ?_⟩, ?_, sameValue_iff_eq ha hb,
    sameValueZero_iff a b, strictlyEqual_iff a b, sameValue_equivalence, sameValueZero_equivalence⟩
  · rw [Number.toDouble_ofDouble]
    exact Double.toBits_ofBits bits
  · exact ⟨Number.ofDouble_toDouble, fun h => ⟨_, h.symm⟩⟩
  · rw [Bool.eq_iff_iff, sameForm_iff ha hb, sameValue_iff_eq ha hb]

/-- The two zeros, which are kept in different forms: an integer and a double. -/
theorem equality_of_zeros :
    let plus := ofDouble .zero
    let minus := ofDouble Double.zero.neg
    plus.IsNormal ∧ minus.IsNormal ∧ plus.sameForm minus = false ∧ plus.sameValue minus = false ∧
      plus.sameValueZero minus = true ∧ plus.strictlyEqual minus = true := by
  intro plus minus
  have hplus : plus.IsNormal := fun n h => ⟨.zero, (number.inj h).symm⟩
  have hminus : minus.IsNormal := fun n h => ⟨Double.zero.neg, (number.inj h).symm⟩
  have hform : plus.sameForm minus = false := by decide +kernel
  have hzeros : plus.isZero = true ∧ minus.isZero = true := by decide +kernel
  have hnan : plus.isNaN = false ∧ minus.isNaN = false := by decide +kernel
  obtain ⟨-, hsame, -, hzero, hstrict, -⟩ := equality_spec hplus hminus
  have hsameZero := hzero.2 (.inr hzeros)
  exact ⟨hplus, hminus, hform, hsame.symm.trans hform, hsameZero, hstrict.2 ⟨hsameZero, hnan⟩⟩

end Value

end EcmaCore
