/-!
# Doubles as exact counts

A finite double is a whole number of units of `2 ^ -1074`, the smallest
positive double, together with a sign. Counting in that unit keeps every
finite double, every sum and every product an exact natural number, so the
arithmetic of this folder is exact up to the one rounding step each operation
ends with.

A count is *representable* when its significant bits fit into 53 and it lies
below `2 ^ 2098` units (`2 ^ 1024`). Rounding goes to the nearest
representable count, a tie to the one whose last kept bit is even.

## Main results

* `roundUnits_representable`: rounding always gives a representable count or
  one past the last of them.
* `roundUnits_of_representable`: rounding leaves representable counts alone.
-/

namespace EcmaCore

namespace Double

/-! ## Counting in units -/

/-- One is `2 ^ 1074` units. -/
def one : Nat := 1 <<< 1074

/-- Finite doubles stay below `2 ^ 1024`, which is `2 ^ 2098` units. -/
def bound : Nat := 1 <<< 2098

/-- The distance between neighbours of a double with `units` units. -/
def spacing (units : Nat) : Nat := 1 <<< (units.log2 - 52)

/-- A count of units that some finite double has. -/
def Representable (units : Nat) : Prop := units < bound ∧ spacing units ∣ units

instance (units : Nat) : Decidable (Representable units) :=
  inferInstanceAs (Decidable (_ ∧ _))

/-! ## Rounding -/

/-- The quotient rounded to the nearest natural number, ties to even. -/
def roundDiv (num den : Nat) : Nat :=
  let quotient := num / den
  let rest := num % den
  if 2 * rest < den then quotient
  else if den < 2 * rest then quotient + 1
  else quotient + quotient % 2

/-- The representable count nearest to `num / den` units, ties to even. -/
def roundUnits (num den : Nat) : Nat :=
  let step := spacing (num / den)
  roundDiv num (den * step) * step

theorem roundDiv_le (num den : Nat) : roundDiv num den ≤ num / den + 1 := by
  have := Nat.mod_lt (num / den) (by decide : 0 < 2)
  unfold roundDiv
  dsimp only
  split
  · omega
  · split <;> omega

theorem roundDiv_mul_self (k : Nat) {den : Nat} (hden : 0 < den) :
    roundDiv (k * den) den = k := by
  unfold roundDiv
  dsimp only
  rw [Nat.mul_div_cancel _ hden, Nat.mul_mod_left, if_pos (by omega)]

theorem spacing_pos (units : Nat) : 0 < spacing units := by
  rw [spacing, Nat.one_shiftLeft]
  exact Nat.two_pow_pos _

theorem lt_spacing_shiftLeft (units : Nat) : units < spacing units <<< 53 := by
  have h := @Nat.lt_log2_self units
  refine Nat.lt_of_lt_of_le h ?_
  rw [spacing, Nat.one_shiftLeft, Nat.shiftLeft_eq, ← Nat.pow_add]
  exact Nat.pow_le_pow_right (by decide) (by omega)

theorem roundUnits_of_dvd {units : Nat} (h : spacing units ∣ units) :
    roundUnits units 1 = units := by
  obtain ⟨k, hk⟩ := h
  have hpos := spacing_pos units
  unfold roundUnits
  dsimp only
  rw [Nat.div_one, Nat.one_mul]
  have hround : roundDiv units (spacing units) = k := by
    conv => lhs; arg 1; rw [hk, Nat.mul_comm]
    exact roundDiv_mul_self k hpos
  rw [hround, Nat.mul_comm, ← hk]

/-- Rounding leaves representable counts alone. -/
theorem roundUnits_of_representable {units : Nat} (h : Representable units) :
    roundUnits units 1 = units :=
  roundUnits_of_dvd h.2

/-- A count with at most 53 significant bits is a multiple of its spacing. -/
theorem spacing_shiftLeft_dvd {k s : Nat} (hk : k ≤ 1 <<< 53) :
    spacing (k <<< s) ∣ k <<< s := by
  rw [Nat.one_shiftLeft] at hk
  rw [Nat.shiftLeft_eq, spacing, Nat.one_shiftLeft]
  rcases Nat.eq_zero_or_pos k with rfl | hpos
  · simp
  · rcases Nat.lt_or_eq_of_le hk with hlt | rfl
    · have hlog : (k * 2 ^ s).log2 ≤ 52 + s := by
        have : (k * 2 ^ s).log2 < 53 + s := by
          rw [Nat.log2_lt (Nat.ne_of_gt (Nat.mul_pos hpos (Nat.two_pow_pos s))), Nat.pow_add]
          exact Nat.mul_lt_mul_of_pos_right hlt (Nat.two_pow_pos s)
        omega
      exact Nat.dvd_trans (Nat.pow_dvd_pow 2 (by omega)) ⟨k, Nat.mul_comm _ _⟩
    · rw [← Nat.pow_add, Nat.log2_two_pow]
      exact Nat.pow_dvd_pow 2 (by omega)

/-- Rounding gives a representable count, or one past the last of them. -/
theorem roundUnits_representable (num den : Nat)
    (h : roundUnits num den < bound) : Representable (roundUnits num den) := by
  have hstep := lt_spacing_shiftLeft (num / den)
  have hdvd (k : Nat) (hk : k ≤ 1 <<< 53) : spacing (k * spacing (num / den)) ∣
      k * spacing (num / den) := by
    have := spacing_shiftLeft_dvd (s := (num / den).log2 - 52) hk
    rwa [Nat.shiftLeft_eq, ← Nat.one_shiftLeft] at this
  refine ⟨h, hdvd _ (Nat.le_trans (roundDiv_le _ _) ?_)⟩
  rw [Nat.shiftLeft_eq, Nat.mul_comm] at hstep
  rw [Nat.one_shiftLeft, ← Nat.div_div_eq_div_mul]
  have := (Nat.div_lt_iff_lt_mul (spacing_pos (num / den))).2 hstep
  omega

end Double

/-- A 64-bit floating-point number: not a number, an infinity, or a sign with a
representable count of units of `2 ^ -1074`. -/
inductive Double where
  | nan
  | infinity (negative : Bool)
  | finite (negative : Bool) (magnitude : { units : Nat // Double.Representable units })
  deriving DecidableEq

namespace Double

/-- The double nearest to `num / den` units of the given sign, ties to even; an
infinity when that lies past the last finite double. -/
def ofRatio (negative : Bool) (num den : Nat) : Double :=
  if h : roundUnits num den < bound then
    .finite negative ⟨roundUnits num den, roundUnits_representable num den h⟩
  else
    .infinity negative

/-- The double of the given sign nearest to a count of units. -/
def ofUnits (negative : Bool) (units : Nat) : Double := ofRatio negative units 1

theorem ofUnits_val (negative : Bool) (magnitude : { units : Nat // Representable units }) :
    ofUnits negative magnitude.val = .finite negative magnitude := by
  have hround := roundUnits_of_representable magnitude.property
  unfold ofUnits ofRatio
  rw [dif_pos (by rw [hround]; exact magnitude.property.1)]
  congr 1
  exact Subtype.ext hround

/-- Positive zero. -/
def zero : Double := .finite false ⟨0, by decide +kernel⟩

/-- The double nearest to an integer; zero is positive. -/
def ofInt (i : Int) : Double := ofUnits (i < 0) (i.natAbs * one)

/-- The double nearest to a natural number. -/
def ofNat (n : Nat) : Double := ofUnits false (n * one)

/-! ## Bit patterns -/

/-- The significand bit above the 52 written ones. -/
def leadingBit : Nat := 1 <<< 52

/-- The bit of a pattern that holds the sign. -/
def signBit : Nat := 1 <<< 63

/-- The double with the given interchange bits: a sign bit, 11 exponent bits and 52
fraction bits. All patterns of not-a-number are one value. -/
def ofBits (bits : UInt64) : Double :=
  let pattern := bits.toNat
  let negative := signBit ≤ pattern
  let exponent := (pattern >>> 52) % 2048
  let fraction := pattern % leadingBit
  if exponent = 2047 then
    if fraction = 0 then .infinity negative else .nan
  else if exponent = 0 then ofUnits negative fraction
  else ofUnits negative ((leadingBit + fraction) <<< (exponent - 1))

/-- The interchange bits of a double; not-a-number is the quiet pattern. -/
def toBits : Double → UInt64
  | .nan => 0x7ff8000000000000
  | .infinity negative => if negative then 0xfff0000000000000 else 0x7ff0000000000000
  | .finite negative magnitude =>
      let units := magnitude.val
      let shift := units.log2 - 52
      let body :=
        if units < leadingBit then units
        else ((shift + 1) <<< 52) + ((units >>> shift) - leadingBit)
      UInt64.ofNat ((if negative then signBit else 0) + body)

end Double

end EcmaCore
