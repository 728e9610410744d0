import EcmaCore.Proofs.Number.Bits
import Mathlib.Data.Nat.Dist

/-!
# The nearest double

What rounding is for: of the counts that have at most 53 significant bits, the rounded one is the
nearest, and if two are equally near it is the one with the even significand. There is only one
such count. It is moved by a factor that is a power of two, and it is not moved by an addend below
half of its spacing.

So doubles of natural numbers are multiplied by powers of two without loss, and they swallow what
lies too far below their last bit.

## Main results

* `Double.isNearest_iff`: the double of a natural number is the nearest one, ties to even.
* `Double.mul_ofNat_two_pow`: products with powers of two.
* `Double.add_ofNat_of_representable`, `Double.add_ofNat_of_log2_le`: sums that are exact, and
  sums in which the second addend is lost.
-/

namespace EcmaCore.Double

/-! ## Counts with at most 53 significant bits -/

theorem spacing_eq (units : Nat) : spacing units = 2 ^ (units.log2 - 52) := by
  rw [spacing, Nat.one_shiftLeft]

/-- The kept bits of a count that is a multiple of its spacing. -/
def significand (units : Nat) : Nat := units / spacing units

theorem log2_mul_two_pow {n : Nat} (hn : n ≠ 0) (s : Nat) : (n * 2 ^ s).log2 = n.log2 + s := by
  have hpos := Nat.two_pow_pos s
  rw [Nat.log2_eq_iff (Nat.mul_ne_zero hn (Nat.ne_of_gt hpos))]
  constructor
  · rw [Nat.pow_add]
    exact Nat.mul_le_mul_right _ (Nat.log2_self_le hn)
  · rw [show n.log2 + s + 1 = n.log2 + 1 + s by omega, Nat.pow_add 2 (n.log2 + 1)]
    exact Nat.mul_lt_mul_of_pos_right Nat.lt_log2_self hpos

/-- A factor that is a power of two moves the spacing. -/
theorem spacing_mul_two_pow {n : Nat} (hn : 52 ≤ n.log2) (s : Nat) :
    spacing (n * 2 ^ s) = spacing n * 2 ^ s := by
  have hne : n ≠ 0 := by
    rintro rfl
    exact absurd hn (by decide)
  rw [spacing_eq, spacing_eq, log2_mul_two_pow hne, ← Nat.pow_add]
  congr 1
  omega

theorem log2_of_significand {k : Nat} (hlow : 2 ^ 52 ≤ k) (hhigh : k < 2 ^ 53) (e : Nat) :
    (k * 2 ^ e).log2 = 52 + e := by
  have hlog : k.log2 = 52 := (Nat.log2_eq_iff (by omega)).2 ⟨hlow, hhigh⟩
  rw [log2_mul_two_pow (by omega), hlog]

/-- A significand is even exactly if the number of spacings is, also where the latter has one bit
more. -/
theorem even_significand_iff {k : Nat} (hlow : 2 ^ 52 ≤ k) (hhigh : k ≤ 2 ^ 53) (e : Nat) :
    2 ∣ significand (k * 2 ^ e) ↔ 2 ∣ k := by
  have hpos := Nat.two_pow_pos e
  rcases Nat.lt_or_eq_of_le hhigh with hlt | rfl
  · rw [significand, spacing_eq, log2_of_significand hlow hlt, Nat.add_sub_cancel_left,
      Nat.mul_div_cancel _ hpos]
  · have hlog : (2 ^ 53 * 2 ^ e).log2 - 52 = e + 1 := by
      rw [← Nat.pow_add, Nat.log2_two_pow]
      omega
    have hhalf : 2 ^ 53 * 2 ^ e = 2 ^ 52 * 2 ^ (e + 1) := by
      rw [Nat.pow_succ]
      omega
    rw [significand, spacing_eq, hlog, hhalf, Nat.mul_div_cancel _ (Nat.two_pow_pos _)]
    decide

/-! ## The neighbours of a count -/

section Neighbours

variable {n : Nat}

/-- Where neighbours are apart, the count below a number is a full significand. -/
theorem quotient_bounds (h : 1 < spacing n) :
    2 ^ 52 ≤ n / spacing n ∧ n / spacing n < 2 ^ 53 := by
  have hpos := spacing_pos n
  have hlog : 52 < n.log2 := by
    refine Nat.lt_of_not_le fun hle => ?_
    rw [spacing_eq, Nat.sub_eq_zero_of_le hle] at h
    exact absurd h (by decide)
  have hne : n ≠ 0 := by
    rintro rfl
    exact absurd hlog (by decide)
  have hsplit (k : Nat) : 2 ^ k * spacing n = 2 ^ (k + (n.log2 - 52)) := by
    rw [spacing_eq, ← Nat.pow_add]
  constructor
  · rw [Nat.le_div_iff_mul_le hpos, hsplit, show 52 + (n.log2 - 52) = n.log2 by omega]
    exact Nat.log2_self_le hne
  · rw [Nat.div_lt_iff_lt_mul hpos, hsplit, show 53 + (n.log2 - 52) = n.log2 + 1 by omega]
    exact Nat.lt_log2_self

/-- Multiples of the spacing of a number next to it are multiples of their own spacing. -/
theorem spaced_of_le {k : Nat} (hk : k ≤ n / spacing n + 1) :
    spacing (k * spacing n) ∣ k * spacing n := by
  have hquotient : n / spacing n < 1 <<< 53 := by
    have hlt := lt_spacing_shiftLeft n
    rw [Nat.shiftLeft_eq, Nat.mul_comm] at hlt
    rw [Nat.one_shiftLeft]
    exact (Nat.div_lt_iff_lt_mul (spacing_pos n)).2 hlt
  have hdvd := spacing_shiftLeft_dvd (s := n.log2 - 52) (Nat.le_trans hk hquotient)
  rwa [Nat.shiftLeft_eq, ← spacing_eq] at hdvd

/-- Of the two counts next to a number one has an even significand. -/
theorem even_significand_neighbour {k : Nat} (h : 1 < spacing n) (hlow : n / spacing n ≤ k)
    (hhigh : k ≤ n / spacing n + 1) : 2 ∣ significand (k * spacing n) ↔ 2 ∣ k := by
  obtain ⟨hfull, hshort⟩ := quotient_bounds h
  have heven := even_significand_iff (Nat.le_trans hfull hlow) (Nat.le_trans hhigh hshort)
    (n.log2 - 52)
  rwa [← spacing_eq] at heven

/-- Between a number and the next multiples of its spacing lies no count that is a multiple of its
own spacing. -/
theorem le_or_ge_of_spaced {units : Nat} (h : spacing units ∣ units) :
    units ≤ n / spacing n * spacing n ∨ (n / spacing n + 1) * spacing n ≤ units := by
  have hpos := spacing_pos n
  by_contra hnone
  obtain ⟨hlow, hhigh⟩ := not_or.1 hnone
  have hspacing : spacing units = spacing n := by
    rcases Nat.lt_or_ge 1 (spacing n) with hapart | hclose
    · -- the count has its leading bit where the number has it
      obtain ⟨hfull, hshort⟩ := quotient_bounds hapart
      have hlog (k : Nat) : 2 ^ k * spacing n = 2 ^ (k + (n.log2 - 52)) := by
        rw [spacing_eq, ← Nat.pow_add]
      have hbelow : 2 ^ (52 + (n.log2 - 52)) ≤ units := by
        rw [← hlog]
        exact Nat.le_trans (Nat.mul_le_mul_right _ hfull) (by omega)
      have habove : units < 2 ^ (53 + (n.log2 - 52)) := by
        rw [← hlog]
        exact Nat.lt_of_lt_of_le (Nat.lt_of_not_le hhigh) (Nat.mul_le_mul_right _ hshort)
      have hne : units ≠ 0 := Nat.ne_of_gt (Nat.lt_of_lt_of_le (Nat.two_pow_pos _) hbelow)
      have hunits : units.log2 = 52 + (n.log2 - 52) := by
        rw [Nat.log2_eq_iff hne, show 52 + (n.log2 - 52) + 1 = 53 + (n.log2 - 52) by omega]
        exact ⟨hbelow, habove⟩
      rw [spacing_eq, spacing_eq, hunits, Nat.add_sub_cancel_left]
    · have hone : spacing n = 1 := by omega
      rw [hone] at hlow hhigh
      omega
  rw [hspacing] at h
  obtain ⟨k, rfl⟩ := h
  have hgt : n / spacing n < k := by
    refine Nat.lt_of_not_le fun hle => hlow ?_
    rw [Nat.mul_comm]
    exact Nat.mul_le_mul_right _ hle
  refine hhigh ?_
  rw [Nat.mul_comm (spacing n)]
  exact Nat.mul_le_mul_right _ hgt

/-- How far a number is from the two counts next to it. -/
theorem dist_quotient (n : Nat) :
    Nat.dist n (n / spacing n * spacing n) = n % spacing n ∧
      Nat.dist n ((n / spacing n + 1) * spacing n) = spacing n - n % spacing n := by
  have hdivide := Nat.div_add_mod' n (spacing n)
  have hrest := Nat.mod_lt n (spacing_pos n)
  rw [Nat.succ_mul]
  simp only [Nat.dist]
  omega

end Neighbours

/-! ## Rounding goes to the nearest -/

/-- Of the counts that are multiples of their spacing this is the nearest to a number, and of two
that are equally near the one with the even significand. -/
structure NearestUnits (n units : Nat) : Prop where
  spaced : spacing units ∣ units
  nearest : ∀ other, spacing other ∣ other → Nat.dist n units ≤ Nat.dist n other
  even : ∀ other, spacing other ∣ other → other ≠ units →
    Nat.dist n other = Nat.dist n units → 2 ∣ significand units

/-- A nearest count is one of the two next to the number. -/
theorem NearestUnits.eq_or_eq {n units : Nat} (h : NearestUnits n units) :
    units = n / spacing n * spacing n ∨ units = (n / spacing n + 1) * spacing n := by
  obtain ⟨hlow, hhigh⟩ := dist_quotient n
  have hbelow := h.nearest _ (spaced_of_le (n := n) (Nat.le_succ _))
  have habove := h.nearest _ (spaced_of_le (n := n) (Nat.le_refl _))
  have hdivide := Nat.div_add_mod' n (spacing n)
  have hrest := Nat.mod_lt n (spacing_pos n)
  rw [hlow] at hbelow
  rw [hhigh] at habove
  rcases le_or_ge_of_spaced (n := n) h.spaced with hle | hge
  · left
    simp only [Nat.dist] at hbelow
    omega
  · right
    rw [Nat.succ_mul] at hge ⊢
    simp only [Nat.dist] at habove
    omega

/-- There is at most one nearest count. -/
theorem NearestUnits.unique {n units units' : Nat} (h : NearestUnits n units)
    (h' : NearestUnits n units') : units = units' := by
  by_contra hne
  have hdist : Nat.dist n units = Nat.dist n units' :=
    Nat.le_antisymm (h.nearest _ h'.spaced) (h'.nearest _ h.spaced)
  have heven := h.even _ h'.spaced (Ne.symm hne) hdist.symm
  have heven' := h'.even _ h.spaced hne hdist
  obtain ⟨hlow, hhigh⟩ := dist_quotient n
  have hrest := Nat.mod_lt n (spacing_pos n)
  -- two different ones are the two next to the number, and one of these has an odd significand
  have htie (hdist : n % spacing n = spacing n - n % spacing n)
      (heven : 2 ∣ significand (n / spacing n * spacing n))
      (heven' : 2 ∣ significand ((n / spacing n + 1) * spacing n)) : False := by
    have hapart : 1 < spacing n := by omega
    rw [even_significand_neighbour hapart (Nat.le_refl _) (Nat.le_succ _)] at heven
    rw [even_significand_neighbour hapart (Nat.le_succ _) (Nat.le_refl _)] at heven'
    omega
  rcases h.eq_or_eq with rfl | rfl <;> rcases h'.eq_or_eq with rfl | rfl
  · exact hne rfl
  · exact htie (by rw [hlow, hhigh] at hdist; exact hdist) heven heven'
  · exact htie (by rw [hlow, hhigh] at hdist; exact hdist.symm) heven' heven
  · exact hne rfl

theorem roundUnits_eq (n : Nat) : roundUnits n 1 = roundDiv n (spacing n) * spacing n := by
  rw [roundUnits, Nat.div_one, Nat.one_mul]

/-- **Rounding goes to the nearest count**, ties to the even significand. -/
theorem nearestUnits_roundUnits (n : Nat) : NearestUnits n (roundUnits n 1) := by
  obtain ⟨hlow, hhigh⟩ := dist_quotient n
  have hdivide := Nat.div_add_mod' n (spacing n)
  have hrest := Nat.mod_lt n (spacing_pos n)
  rw [roundUnits_eq]
  unfold roundDiv
  dsimp only
  rw [Nat.succ_mul] at hhigh
  -- what is not next to the number is farther away
  have hfar (other : Nat) (hother : spacing other ∣ other) :
      other ≤ n / spacing n * spacing n ∨ n / spacing n * spacing n + spacing n ≤ other := by
    have houtside := le_or_ge_of_spaced (n := n) hother
    rwa [Nat.succ_mul] at houtside
  split
  · next hless =>
    refine ⟨spaced_of_le (Nat.le_succ _), fun other hother => ?_, fun other hother hne hdist => ?_⟩
    · have := hfar other hother
      simp only [Nat.dist]
      omega
    · have := hfar other hother
      simp only [Nat.dist] at hdist
      omega
  · split
    · next hmore =>
      refine ⟨spaced_of_le (Nat.le_refl _), fun other hother => ?_,
        fun other hother hne hdist => ?_⟩
      · have := hfar other hother
        rw [Nat.succ_mul]
        simp only [Nat.dist]
        omega
      · have := hfar other hother
        rw [Nat.succ_mul] at hne hdist
        simp only [Nat.dist] at hdist
        omega
    · next hless hmore =>
      have htie : 2 * (n % spacing n) = spacing n := by omega
      have hparity := Nat.mod_lt (n / spacing n) (by decide : 0 < 2)
      refine ⟨spaced_of_le (by omega), fun other hother => ?_, fun other hother hne hdist => ?_⟩
      · have := hfar other hother
        rcases Nat.mod_two_eq_zero_or_one (n / spacing n) with heven | hodd
        · rw [heven, Nat.add_zero]
          simp only [Nat.dist]
          omega
        · rw [hodd, Nat.succ_mul]
          simp only [Nat.dist]
          omega
      · rw [even_significand_neighbour (by omega) (Nat.le_add_right _ _) (by omega)]
        omega

/-! ## The double of a natural number -/

/-- The double nearest to a natural number, ties to the even significand: infinite where the nearest
count of units is too great for a double. -/
inductive IsNearest (n : Nat) : Double → Prop
  | finite {units : Nat} (h : NearestUnits (n * one) units) (hlt : units < bound) :
      IsNearest n (.finite false ⟨units, hlt, h.spaced⟩)
  | infinite {units : Nat} (h : NearestUnits (n * one) units) (hle : bound ≤ units) :
      IsNearest n (.infinity false)

/-- **The double of a natural number is the nearest one.** -/
theorem isNearest_iff (n : Nat) (x : Double) : x.IsNearest n ↔ x = ofNat n := by
  have hround := nearestUnits_roundUnits (n * one)
  constructor
  · intro h
    unfold ofNat ofUnits ofRatio
    cases h with
    | finite h hlt =>
        have hunits := h.unique hround
        rw [dif_pos (hunits ▸ hlt)]
        exact congrArg (Double.finite false) (Subtype.ext hunits)
    | infinite h hle =>
        rw [dif_neg (by rw [← h.unique hround]; exact Nat.not_lt.2 hle)]
  · rintro rfl
    unfold ofNat ofUnits ofRatio
    split
    · next hlt => exact .finite hround hlt
    · next hle => exact .infinite hround (Nat.le_of_not_lt hle)

/-! ## Scaling -/

theorem roundDiv_mul_right (num den : Nat) {c : Nat} (hc : 0 < c) :
    roundDiv (num * c) (den * c) = roundDiv num den := by
  have hscale (a b : Nat) : 2 * (a * c) < b * c ↔ 2 * a < b := by
    rw [← Nat.mul_assoc]
    exact Nat.mul_lt_mul_right hc
  have hscale' (a b : Nat) : b * c < 2 * (a * c) ↔ b < 2 * a := by
    rw [← Nat.mul_assoc]
    exact Nat.mul_lt_mul_right hc
  unfold roundDiv
  dsimp only
  rw [Nat.mul_div_mul_right _ _ hc, Nat.mul_mod_mul_right]
  simp only [hscale, hscale']

/-- A quotient that is exact rounds like a count. -/
theorem roundUnits_mul_self (n : Nat) {den : Nat} (hden : 0 < den) :
    roundUnits (n * den) den = roundUnits n 1 := by
  rw [roundUnits_eq, roundUnits, Nat.mul_div_cancel n hden, Nat.mul_comm den,
    roundDiv_mul_right n (spacing n) hden]

/-- **Rounding is moved by a factor that is a power of two.** -/
theorem roundUnits_mul_two_pow {n : Nat} (hn : 52 ≤ n.log2) (s : Nat) :
    roundUnits (n * 2 ^ s) 1 = roundUnits n 1 * 2 ^ s := by
  rw [roundUnits_eq, roundUnits_eq, spacing_mul_two_pow hn,
    roundDiv_mul_right n (spacing n) (Nat.two_pow_pos s), Nat.mul_assoc]

/-- **Rounding swallows an addend** below half of the spacing. -/
theorem roundUnits_add_of_lt_half {units rest : Nat} (hspaced : spacing units ∣ units)
    (hrest : 2 * rest < spacing units) : roundUnits (units + rest) 1 = units := by
  have hspacing : spacing (units + rest) = spacing units := by
    by_cases hzero : units = 0
    · subst hzero
      have hnone : rest = 0 := by
        rw [show spacing 0 = 1 by decide] at hrest
        omega
      rw [hnone]
    · -- the next multiple of the spacing is at most the next power of two
      have hstep : units + spacing units ≤ 2 ^ (units.log2 + 1) := by
        obtain ⟨k, hk⟩ := hspaced
        have hpower : 2 ^ (units.log2 + 1) =
            spacing units * 2 ^ (units.log2 + 1 - (units.log2 - 52)) := by
          rw [spacing_eq, ← Nat.pow_add]
          congr 1
          omega
        have hlt : units < 2 ^ (units.log2 + 1) := Nat.lt_log2_self
        rw [hpower] at hlt ⊢
        conv at hlt => lhs; rw [hk]
        have hk' := Nat.lt_of_mul_lt_mul_left hlt
        calc units + spacing units = spacing units * (k + 1) := by
              conv => lhs; arg 1; rw [hk]
              rw [Nat.mul_succ]
          _ ≤ spacing units * 2 ^ (units.log2 + 1 - (units.log2 - 52)) :=
              Nat.mul_le_mul_left _ hk'
      have hlog : (units + rest).log2 = units.log2 := by
        rw [Nat.log2_eq_iff (by omega)]
        exact ⟨Nat.le_trans (Nat.log2_self_le hzero) (Nat.le_add_right _ _), by omega⟩
      rw [spacing_eq, spacing_eq, hlog]
  have hpos := spacing_pos units
  obtain ⟨k, hk⟩ := hspaced
  have hquotient : (units + rest) / spacing units = k ∧ (units + rest) % spacing units = rest := by
    conv => lhs; lhs; arg 1; rw [hk]
    conv => rhs; lhs; arg 1; rw [hk]
    rw [Nat.mul_add_div hpos, Nat.mul_add_mod, Nat.div_eq_of_lt (by omega), Nat.add_zero]
    exact ⟨rfl, Nat.mod_eq_of_lt (by omega)⟩
  rw [roundUnits_eq, hspacing, roundDiv, hquotient.1, hquotient.2]
  rw [if_pos hrest, Nat.mul_comm, ← hk]

/-! ## Products and sums of natural numbers -/

theorem ofUnits_congr {a b : Nat} (h : roundUnits a 1 = roundUnits b 1) (negative : Bool) :
    ofUnits negative a = ofUnits negative b := by
  unfold ofUnits ofRatio
  simp only [h]

theorem ofNat_of_representable {n : Nat} (h : Representable (n * one)) :
    ofNat n = .finite false ⟨n * one, h⟩ :=
  ofUnits_val false ⟨n * one, h⟩

theorem le_log2_mul_one {n : Nat} (hn : n ≠ 0) : n.log2 + 1074 ≤ (n * one).log2 := by
  have hscale (e : Nat) : n.log2 + e ≤ (n * 1 <<< e).log2 := by
    rw [Nat.one_shiftLeft, log2_mul_two_pow hn]
  exact hscale 1074

/-- The double of a natural number is finite, with its rounded count of units, or infinite. -/
theorem ofNat_cases (n : Nat) :
    (∃ h : roundUnits (n * one) 1 < bound,
        ofNat n = .finite false ⟨roundUnits (n * one) 1, roundUnits_representable _ 1 h⟩) ∨
      bound ≤ roundUnits (n * one) 1 ∧ ofNat n = .infinity false := by
  unfold ofNat ofUnits ofRatio
  split
  · next hlt => exact .inl ⟨hlt, rfl⟩
  · next hle => exact .inr ⟨Nat.le_of_not_lt hle, rfl⟩

theorem roundUnits_mul_one {n : Nat} (hn : 52 ≤ n.log2) :
    roundUnits (n * one) 1 = roundUnits n 1 * one := by
  have hscale (e : Nat) : roundUnits (n * 1 <<< e) 1 = roundUnits n 1 * 1 <<< e := by
    rw [Nat.one_shiftLeft, roundUnits_mul_two_pow hn]
  exact hscale 1074

theorem bound_eq : bound = 1 <<< 1024 * one := by
  rw [one, ← shiftLeft_eq_mul, ← Nat.shiftLeft_add, bound]

/-- Two large numbers have one double if they are rounded alike or both are rounded out of range. -/
theorem ofNat_eq_iff {m n : Nat} (hm : 52 ≤ m.log2) (hn : 52 ≤ n.log2) :
    ofNat m = ofNat n ↔ roundUnits m 1 = roundUnits n 1 ∨
      1 <<< 1024 ≤ roundUnits m 1 ∧ 1 <<< 1024 ≤ roundUnits n 1 := by
  have hrange (k : Nat) : bound ≤ k * one ↔ 1 <<< 1024 ≤ k := by
    rw [bound_eq]
    exact Nat.mul_le_mul_right_iff one_pos
  have hscale : roundUnits m 1 = roundUnits n 1 ↔ roundUnits m 1 * one = roundUnits n 1 * one :=
    (Nat.mul_left_inj (Nat.ne_of_gt one_pos)).symm
  rw [← hrange, ← hrange, hscale, ← roundUnits_mul_one hm, ← roundUnits_mul_one hn]
  rcases ofNat_cases m with ⟨hlt, hfinite⟩ | ⟨hle, hinfinite⟩
  · rcases ofNat_cases n with ⟨hlt', hfinite'⟩ | ⟨hle', hinfinite'⟩
    · rw [hfinite, hfinite', finite.injEq, Subtype.mk.injEq]
      exact ⟨fun h => .inl h.2, fun h => ⟨rfl, h.resolve_right fun h => Nat.not_lt.2 h.1 hlt⟩⟩
    · rw [hfinite, hinfinite']
      refine ⟨nofun, fun h => absurd hlt (Nat.not_lt.2 ?_)⟩
      exact h.elim (fun heq => Nat.le_trans hle' (Nat.le_of_eq heq.symm)) (·.1)
  · rcases ofNat_cases n with ⟨hlt', hfinite'⟩ | ⟨hle', hinfinite'⟩
    · rw [hinfinite, hfinite']
      refine ⟨nofun, fun h => absurd hlt' (Nat.not_lt.2 ?_)⟩
      exact h.elim (fun heq => Nat.le_trans hle (Nat.le_of_eq heq)) (·.2)
    · rw [hinfinite, hinfinite']
      exact ⟨fun _ => .inr ⟨hle, hle'⟩, fun _ => rfl⟩

/-- **Products with powers of two lose nothing.** -/
theorem mul_ofNat_two_pow (n : Nat) {s : Nat} (hs : s ≤ 53) :
    (ofNat n).mul (ofNat (2 ^ s)) = ofNat (n * 2 ^ s) := by
  have hpower : 2 ^ s ≤ Number.integerBound := by
    rw [Number.integerBound, Nat.one_shiftLeft]
    exact Nat.pow_le_pow_right (by decide) hs
  have hscale : roundUnits (n * 2 ^ s * one) 1 = roundUnits (n * one) 1 * 2 ^ s := by
    rw [Nat.mul_right_comm]
    by_cases hn : n = 0
    · rw [hn, Nat.zero_mul, Nat.zero_mul, roundUnits_of_dvd (Nat.dvd_zero _), Nat.zero_mul]
    · exact roundUnits_mul_two_pow (Nat.le_trans (by omega) (le_log2_mul_one hn)) s
  rw [ofNat_eq hpower]
  rcases ofNat_cases n with ⟨hlt, hfinite⟩ | ⟨hle, hinfinite⟩
  · rw [hfinite]
    show ofRatio false (roundUnits (n * one) 1 * (2 ^ s * one)) one = ofNat (n * 2 ^ s)
    have hround : roundUnits (roundUnits (n * one) 1 * (2 ^ s * one)) one =
        roundUnits (n * 2 ^ s * one) 1 := by
      have hspaced := (nearestUnits_roundUnits (n * 2 ^ s * one)).spaced
      rw [← Nat.mul_assoc, roundUnits_mul_self _ one_pos, ← hscale, roundUnits_of_dvd hspaced]
    unfold ofNat ofUnits ofRatio
    simp only [hround]
  · have hlarge : ¬roundUnits (n * 2 ^ s * one) 1 < bound := by
      rw [hscale]
      exact Nat.not_lt.2 (Nat.le_trans hle (Nat.le_mul_of_pos_right _ (Nat.two_pow_pos s)))
    have hne : 2 ^ s * one ≠ 0 := Nat.mul_ne_zero (Nat.ne_of_gt (Nat.two_pow_pos s))
      (Nat.ne_of_gt one_pos)
    rw [hinfinite]
    show (if 2 ^ s * one = 0 then nan else infinity false) = ofNat (n * 2 ^ s)
    rw [if_neg hne]
    unfold ofNat ofUnits ofRatio
    rw [dif_neg hlarge]

theorem add_finite_false (x y : { units : Nat // Representable units }) :
    (finite false x).add (finite false y) = ofUnits false (x.val + y.val) := by
  show ofUnits (if (x.val : Int) + y.val = 0 then false else decide ((x.val : Int) + y.val < 0))
    ((x.val : Int) + y.val).natAbs = _
  rw [decide_eq_false (by omega), ite_self]
  congr 1

/-- Sums of natural numbers that a double holds are rounded once. -/
theorem add_ofNat_of_representable {m n : Nat} (hm : Representable (m * one))
    (hn : Representable (n * one)) : (ofNat m).add (ofNat n) = ofNat (m + n) := by
  rw [ofNat_of_representable hm, ofNat_of_representable hn, add_finite_false, ofNat, Nat.add_mul]

/-- **A sum loses an addend** that is too small for the last bit of the other one. -/
theorem add_ofNat_of_log2_le {n d s : Nat} (hs : s ≤ 53) (hd : d < 2 ^ s)
    (hn : 53 + s ≤ n.log2) : (ofNat n).add (ofNat d) = ofNat n := by
  have hne : n ≠ 0 := by
    rintro rfl
    rw [Nat.log2_zero] at hn
    omega
  have hdigit : d ≤ Number.integerBound := by
    rw [Number.integerBound, Nat.one_shiftLeft]
    exact Nat.le_trans (Nat.le_of_lt hd) (Nat.pow_le_pow_right (by decide) hs)
  rw [ofNat_eq hdigit]
  rcases ofNat_cases n with ⟨hlt, hfinite⟩ | ⟨-, hinfinite⟩
  · have hlog : 53 + s + 1074 ≤ (roundUnits (n * one) 1).log2 := by
      have hunits := le_log2_mul_one hne
      have hapart : 1 < spacing (n * one) := by
        rw [spacing_eq]
        exact Nat.one_lt_two_pow (by omega)
      have hround := le_roundUnits hapart
      rw [spacing_eq, Nat.shiftLeft_eq, ← Nat.pow_add] at hround
      rw [Nat.le_log2 (Nat.ne_of_gt (Nat.lt_of_lt_of_le (Nat.two_pow_pos _) hround))]
      exact Nat.le_trans (Nat.pow_le_pow_right (by decide) (by omega)) hround
    have hlost : 2 * (d * one) < spacing (roundUnits (n * one) 1) := by
      have hdouble (e : Nat) : 2 * (d * 1 <<< e) < 2 ^ (s + (e + 1)) := by
        rw [Nat.one_shiftLeft, Nat.mul_left_comm, ← Nat.pow_succ', Nat.pow_add]
        exact Nat.mul_lt_mul_of_pos_right hd (Nat.two_pow_pos _)
      rw [spacing_eq]
      calc 2 * (d * one) < 2 ^ (s + (1074 + 1)) := hdouble 1074
        _ ≤ 2 ^ ((roundUnits (n * one) 1).log2 - 52) :=
            Nat.pow_le_pow_right (by decide) (by omega)
    have hspaced := (nearestUnits_roundUnits (n * one)).spaced
    rw [hfinite, add_finite_false, ← hfinite]
    refine ofUnits_congr ?_ false
    exact roundUnits_add_of_lt_half hspaced hlost
  · rw [hinfinite]
    rfl

end EcmaCore.Double
