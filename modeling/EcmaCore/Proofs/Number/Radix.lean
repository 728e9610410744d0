import EcmaCore.Proofs.Number.Nearest
import EcmaCore.Proofs.Number.Literal
import Mathlib.Data.Nat.Digits.Defs

/-!
# Literals in base sixteen, eight and two

Digits are read from the left, and the value is rounded after every product and every sum. While
the value has at most 53 bits nothing is rounded at all. From then on the products are exact up to
the rounding that was there before, and the digit that is added lies below half of the last bit, so
it is lost. What comes out is the number whose lost digits are zeros, rounded once.

That is the nearest double except for one pattern: the kept digits lie exactly between two doubles,
the lower of these is even, and one of the lost digits is not zero. Then the tie goes down although
the number lies above it.

## Main results

* `Double.ofRadixDigits_eq`: the loop over the digits rounds the kept digits once.
* `Double.ofNat_kept_eq_iff`: when this is the nearest double of the number.
* `Double.ofText_radix`: what a literal with a mark of a base denotes.
-/

namespace EcmaCore.Double

/-! ## The digits that are kept -/

/-- How many digits at the end come too late to be added. -/
def lostDigits (base n : Nat) : Nat := (n.log2 - 53) / base.log2

/-- A number with zeros for its lost digits. -/
def kept (base n : Nat) : Nat :=
  n / base ^ lostDigits base n * base ^ lostDigits base n

/-- Where reading from the left misses the nearest double: the kept digits are half way between two
doubles, the lower one is even, and what was lost is not zero. -/
def Slips (base n : Nat) : Prop :=
  n < 1 <<< 1024 ∧ kept base n ≠ n ∧ 2 * (kept base n % spacing n) = spacing n ∧
    2 ∣ n / spacing n

instance (base n : Nat) : Decidable (Slips base n) :=
  inferInstanceAs (Decidable (_ ∧ _ ∧ _ ∧ _))

section Kept

variable {s n p d : Nat}

theorem lostDigits_two_pow (s n : Nat) : lostDigits (2 ^ s) n = (n.log2 - 53) / s := by
  rw [lostDigits, Nat.log2_two_pow]

theorem kept_le (base n : Nat) : kept base n ≤ n :=
  Nat.div_mul_le_self _ _

theorem kept_of_log2_lt (h : n.log2 < 53 + s) : kept (2 ^ s) n = n := by
  have hlost : lostDigits (2 ^ s) n = 0 := by
    rw [lostDigits_two_pow]
    exact Nat.div_eq_zero_iff.2 (by omega)
  rw [kept, hlost, Nat.pow_zero, Nat.div_one, Nat.mul_one]

/-- The lost digits lie below half of the spacing. -/
theorem exists_spacing (hn : 53 ≤ n.log2) (s : Nat) :
    ∃ m, spacing n = 2 * m * (2 ^ s) ^ lostDigits (2 ^ s) n := by
  have hle : s * lostDigits (2 ^ s) n ≤ n.log2 - 53 := by
    rw [lostDigits_two_pow]
    exact Nat.mul_div_le _ _
  refine ⟨2 ^ (n.log2 - 53 - s * lostDigits (2 ^ s) n), ?_⟩
  rw [spacing_eq, ← Nat.pow_mul, ← Nat.pow_succ', ← Nat.pow_add]
  congr 1
  omega

/-- A number that is a double loses nothing. -/
theorem kept_of_representable (h : Representable (n * one)) : kept (2 ^ s) n = n := by
  by_cases hn : n.log2 < 53
  · exact kept_of_log2_lt (Nat.lt_add_right s hn)
  · have hscale (e : Nat) : spacing (n * 1 <<< e) = spacing n * 1 <<< e := by
      rw [Nat.one_shiftLeft, spacing_mul_two_pow (by omega)]
    have hdvd : spacing n ∣ n := by
      have hunits := h.2
      rw [show spacing (n * one) = spacing n * one from hscale 1074] at hunits
      exact Nat.dvd_of_mul_dvd_mul_right one_pos hunits
    obtain ⟨m, hm⟩ := exists_spacing (Nat.le_of_not_lt hn) s
    exact Nat.div_mul_cancel (Nat.dvd_trans ⟨2 * m, by rw [hm, Nat.mul_comm]⟩ hdvd)

/-- Losing digits does not move the leading bit. -/
theorem log2_kept (n s : Nat) : (kept (2 ^ s) n).log2 = n.log2 := by
  by_cases hn : n.log2 < 53
  · rw [kept_of_log2_lt (Nat.lt_add_right s hn)]
  · have hne : n ≠ 0 := by
      rintro rfl
      exact hn (by decide)
    have hdvd : (2 ^ s) ^ lostDigits (2 ^ s) n ∣ 2 ^ n.log2 := by
      rw [← Nat.pow_mul, lostDigits_two_pow]
      exact Nat.pow_dvd_pow 2 (Nat.le_trans (Nat.mul_div_le _ _) (Nat.sub_le _ _))
    have hlow : 2 ^ n.log2 ≤ kept (2 ^ s) n := by
      have hquotient := Nat.div_le_div_right (c := (2 ^ s) ^ lostDigits (2 ^ s) n)
        (Nat.log2_self_le hne)
      have hscaled := Nat.mul_le_mul_right ((2 ^ s) ^ lostDigits (2 ^ s) n) hquotient
      rwa [Nat.div_mul_cancel hdvd] at hscaled
    rw [Nat.log2_eq_iff (Nat.ne_of_gt (Nat.lt_of_lt_of_le (Nat.two_pow_pos _) hlow))]
    exact ⟨hlow, Nat.lt_of_le_of_lt (kept_le _ _) Nat.lt_log2_self⟩

theorem spacing_kept (n s : Nat) : spacing (kept (2 ^ s) n) = spacing n := by
  rw [spacing, log2_kept, spacing]

/-! ## One more digit -/

theorem log2_append (hp : p ≠ 0) (hd : d < 2 ^ s) : (p * 2 ^ s + d).log2 = p.log2 + s := by
  have hpos : 0 < p * 2 ^ s := Nat.mul_pos (Nat.pos_of_ne_zero hp) (Nat.two_pow_pos s)
  have hlow := Nat.mul_le_mul_right (2 ^ s) (Nat.log2_self_le hp)
  have hhigh : (p + 1) * 2 ^ s ≤ 2 ^ (p.log2 + 1) * 2 ^ s :=
    Nat.mul_le_mul_right _ (Nat.succ_le_of_lt Nat.lt_log2_self)
  rw [Nat.succ_mul] at hhigh
  rw [Nat.log2_eq_iff (by omega), show p.log2 + s + 1 = p.log2 + 1 + s by omega, Nat.pow_add,
    Nat.pow_add 2 (p.log2 + 1)]
  omega

/-- A digit behind more than 53 bits is lost. -/
theorem kept_append (hs : 0 < s) (hp : 53 ≤ p.log2) (hd : d < 2 ^ s) :
    kept (2 ^ s) (p * 2 ^ s + d) = kept (2 ^ s) p * 2 ^ s := by
  have hne : p ≠ 0 := by
    rintro rfl
    exact absurd hp (by decide)
  have hlost : lostDigits (2 ^ s) (p * 2 ^ s + d) = lostDigits (2 ^ s) p + 1 := by
    rw [lostDigits_two_pow, lostDigits_two_pow, log2_append hne hd,
      show p.log2 + s - 53 = p.log2 - 53 + s by omega, Nat.add_div_right _ hs]
  have hquotient : (p * 2 ^ s + d) / 2 ^ s = p := by
    rw [Nat.mul_comm, Nat.mul_add_div (Nat.two_pow_pos s), Nat.div_eq_of_lt hd, Nat.add_zero]
  rw [kept, hlost, Nat.pow_succ', ← Nat.div_div_eq_div_mul, hquotient, Nat.mul_comm (2 ^ s),
    ← Nat.mul_assoc, ← kept]

/-- Numbers of at most 53 bits behind which one digit is free are doubles. -/
theorem representable_mul_two_pow (hp : p < 2 ^ 53) (hs : s ≤ 53) :
    Representable (p * 2 ^ s * one) := by
  have hspaced (e : Nat) : spacing (p * 2 ^ s * 1 <<< e) ∣ p * 2 ^ s * 1 <<< e := by
    have hdvd := spacing_shiftLeft_dvd (k := p) (s := s + e)
      (by rw [Nat.one_shiftLeft]; exact Nat.le_of_lt hp)
    rwa [Nat.shiftLeft_eq, Nat.pow_add, ← Nat.mul_assoc, ← Nat.one_shiftLeft e] at hdvd
  have hlt : p * 2 ^ s < 1 <<< 1024 := by
    calc p * 2 ^ s < 2 ^ 53 * 2 ^ s := Nat.mul_lt_mul_of_pos_right hp (Nat.two_pow_pos s)
      _ ≤ 2 ^ 53 * 2 ^ 53 := Nat.mul_le_mul_left _ (Nat.pow_le_pow_right (by decide) hs)
      _ < 1 <<< 1024 := by decide +kernel
  refine ⟨?_, hspaced 1074⟩
  rw [bound_eq]
  exact Nat.mul_lt_mul_of_pos_right hlt one_pos

/-- One turn of the loop over the digits. -/
theorem ofNat_kept_append (hs : 0 < s) (hle : s ≤ 53) (hd : d < 2 ^ s) (p : Nat) :
    ((ofNat (kept (2 ^ s) p)).mul (ofNat (2 ^ s))).add (ofNat d) =
      ofNat (kept (2 ^ s) (p * 2 ^ s + d)) := by
  rw [mul_ofNat_two_pow _ hle]
  by_cases hp : p.log2 < 53
  · have hlt : p < 2 ^ 53 :=
      Nat.lt_of_lt_of_le Nat.lt_log2_self (Nat.pow_le_pow_right (by decide) hp)
    have hshort : (p * 2 ^ s + d).log2 < 53 + s := by
      by_cases hzero : p * 2 ^ s + d = 0
      · rw [hzero, Nat.log2_zero]
        omega
      · rw [Nat.log2_lt hzero, Nat.pow_add]
        have hstep := Nat.mul_le_mul_right (2 ^ s) (Nat.succ_le_of_lt hlt)
        rw [Nat.succ_mul] at hstep
        omega
    have hdigit : d ≤ Number.integerBound := by
      rw [Number.integerBound, Nat.one_shiftLeft]
      exact Nat.le_trans (Nat.le_of_lt hd) (Nat.pow_le_pow_right (by decide) hle)
    rw [kept_of_log2_lt (Nat.lt_add_right s hp), kept_of_log2_lt hshort]
    exact add_ofNat_of_representable (representable_mul_two_pow hlt hle)
      (representable_mul_one hdigit)
  · have hp' : 53 ≤ p.log2 := Nat.le_of_not_lt hp
    have hlog : 53 + s ≤ (kept (2 ^ s) p * 2 ^ s).log2 := by
      rw [log2_mul_two_pow _ s, log2_kept]
      · exact Nat.add_le_add_right hp' s
      · intro hzero
        rw [← log2_kept p s, hzero] at hp'
        exact absurd hp' (by decide)
    rw [kept_append hs hp' hd, add_ofNat_of_log2_le hle hd hlog]

end Kept

/-- **The loop rounds the kept digits once.** -/
theorem ofRadixDigits_eq {s : Nat} (hs : 0 < s) (hle : s ≤ 53) (digits : List Nat)
    (hdigits : ∀ d ∈ digits, d < 2 ^ s) :
    ofRadixDigits (2 ^ s) digits =
      ofNat (kept (2 ^ s) (Nat.ofDigits (2 ^ s) digits.reverse)) := by
  -- the invariant is about prefixes, so the induction is on the last digit
  induction digits using List.reverseRecOn with
  | nil =>
      rw [List.reverse_nil, Nat.ofDigits_nil, kept_of_log2_lt (by rw [Nat.log2_zero]; omega)]
      exact ofNat_zero.symm
  | append_singleton digits d ih =>
      obtain ⟨hfront, hlast⟩ := List.forall_mem_append.1 hdigits
      have hd := hlast d (List.mem_singleton_self d)
      have hturn := ofNat_kept_append hs hle hd (Nat.ofDigits (2 ^ s) digits.reverse)
      rw [← ih hfront] at hturn
      rw [List.reverse_append, List.reverse_singleton, List.singleton_append, Nat.ofDigits_cons,
        Nat.add_comm, Nat.mul_comm]
      rw [ofRadixDigits, List.foldl_append]
      exact hturn

/-! ## When the kept digits decide -/

/-- Dropping what lies below half of the divisor changes a rounded quotient only where it makes a
tie. -/
theorem roundDiv_drop (n : Nat) {q m : Nat} (hq : 0 < q) :
    (n / q * q ≠ n → 2 * (n / q * q % (2 * m * q)) = 2 * m * q →
      roundDiv (n / q * q) (2 * m * q) = n / (2 * m * q) + n / (2 * m * q) % 2 ∧
        roundDiv n (2 * m * q) = n / (2 * m * q) + 1) ∧
      (n / q * q = n ∨ 2 * (n / q * q % (2 * m * q)) ≠ 2 * m * q →
        roundDiv (n / q * q) (2 * m * q) = roundDiv n (2 * m * q)) := by
  have hquotient : n / q * q / (2 * m * q) = n / (2 * m * q) := by
    rw [Nat.mul_div_mul_right _ _ hq, Nat.div_div_eq_div_mul, Nat.mul_comm q]
  have hrest : n / q * q % (2 * m * q) = n / q % (2 * m) * q := Nat.mul_mod_mul_right _ _ _
  have hrest' : n % (2 * m * q) = n % q + n / q % (2 * m) * q := by
    rw [Nat.mul_comm (2 * m), Nat.mod_mul, Nat.mul_comm q]
  have hlost := Nat.mod_lt n hq
  have hsplit := Nat.div_add_mod' n q
  have hdouble : 2 * m * q = 2 * (m * q) := Nat.mul_assoc _ _ _
  unfold roundDiv
  dsimp only
  rw [hquotient, hrest, hrest']
  constructor
  · intro hne htie
    rw [if_neg (by omega), if_neg (by omega), if_neg (by omega), if_pos (by omega)]
    exact ⟨rfl, rfl⟩
  · intro hno
    rcases Nat.lt_trichotomy (n / q % (2 * m)) m with hless | htie | hmore
    · have hstep := Nat.mul_le_mul_right q (Nat.succ_le_of_lt hless)
      rw [Nat.succ_mul] at hstep
      rw [if_pos (by omega), if_pos (by omega)]
    · rw [htie] at hno ⊢
      have hnone : n % q = 0 := by omega
      rw [hnone, Nat.zero_add]
    · have hstep := Nat.mul_lt_mul_of_pos_right hmore hq
      rw [if_neg (by omega), if_pos (by omega), if_neg (by omega), if_pos (by omega)]

section Slips

variable {n s : Nat}

/-- Numbers that lose something have more than 53 bits. -/
theorem le_log2_of_kept_ne (h : kept (2 ^ s) n ≠ n) : 53 ≤ n.log2 :=
  Nat.le_of_not_lt fun hlt => h (kept_of_log2_lt (Nat.lt_add_right s hlt))

/-- What rounding makes of the kept digits: the same as of the number, except where they are half
way between two doubles. -/
theorem roundUnits_kept (n s : Nat) :
    (kept (2 ^ s) n ≠ n → 2 * (kept (2 ^ s) n % spacing n) = spacing n →
      roundUnits (kept (2 ^ s) n) 1 = (n / spacing n + n / spacing n % 2) * spacing n ∧
        roundUnits n 1 = (n / spacing n + 1) * spacing n) ∧
      (kept (2 ^ s) n = n ∨ 2 * (kept (2 ^ s) n % spacing n) ≠ spacing n →
        roundUnits (kept (2 ^ s) n) 1 = roundUnits n 1) := by
  by_cases hn : n.log2 < 53
  · rw [kept_of_log2_lt (Nat.lt_add_right s hn)]
    exact ⟨fun hne => absurd rfl hne, fun _ => rfl⟩
  · obtain ⟨m, hm⟩ := exists_spacing (Nat.le_of_not_lt hn) s
    have hdrop := roundDiv_drop n (m := m) (Nat.pow_pos (n := lostDigits (2 ^ s) n)
      (Nat.two_pow_pos s))
    rw [← hm, ← kept] at hdrop
    rw [roundUnits_eq, roundUnits_eq, spacing_kept]
    constructor
    · intro hne htie
      obtain ⟨hkept, hround⟩ := hdrop.1 hne htie
      rw [hkept, hround]
      exact ⟨rfl, rfl⟩
    · intro hno
      rw [hdrop.2 hno]

/-- The double below a number with more than 53 bits. -/
theorem full_below (hn : 53 ≤ n.log2) :
    52 ≤ (n / spacing n * spacing n).log2 ∧ 2 ^ n.log2 ≤ n / spacing n * spacing n := by
  have hapart : 1 < spacing n := by
    rw [spacing_eq]
    exact Nat.one_lt_two_pow (by omega)
  have hlow : 2 ^ n.log2 ≤ n / spacing n * spacing n := by
    have hpower : 2 ^ 52 * spacing n = 2 ^ n.log2 := by
      rw [spacing_eq, ← Nat.pow_add]
      congr 1
      omega
    rw [← hpower]
    exact Nat.mul_le_mul_right _ (quotient_bounds hapart).1
  refine ⟨?_, hlow⟩
  rw [Nat.le_log2 (Nat.ne_of_gt (Nat.lt_of_lt_of_le (Nat.two_pow_pos _) hlow))]
  exact Nat.le_trans (Nat.pow_le_pow_right (by decide) (by omega)) hlow

/-- Where reading slips, it ends at the double below. -/
theorem Slips.ofNat_kept (h : Slips (2 ^ s) n) :
    ofNat (kept (2 ^ s) n) = ofNat (n / spacing n * spacing n) := by
  obtain ⟨-, hne, htie, heven⟩ := h
  have hlog := le_log2_of_kept_ne hne
  have hround := ((roundUnits_kept n s).1 hne htie).1
  rw [Nat.mod_eq_zero_of_dvd heven, Nat.add_zero] at hround
  rw [ofNat_eq_iff (by rw [log2_kept]; omega) (full_below hlog).1, hround,
    roundUnits_of_dvd (spaced_of_le (Nat.le_succ _))]
  exact .inl rfl

/-- **Where the kept digits decide.** The kept digits have the double of the number, except where
reading slips. -/
theorem ofNat_kept_eq_iff (n s : Nat) :
    ofNat (kept (2 ^ s) n) = ofNat n ↔ ¬Slips (2 ^ s) n := by
  obtain ⟨htie, hsame⟩ := roundUnits_kept n s
  by_cases hkept : kept (2 ^ s) n = n
  · rw [hkept]
    exact ⟨fun _ hslips => hslips.2.1 hkept, fun _ => rfl⟩
  have hlog := le_log2_of_kept_ne hkept
  rw [ofNat_eq_iff (by rw [log2_kept]; omega) (by omega)]
  by_cases hhalf : 2 * (kept (2 ^ s) n % spacing n) = spacing n
  · obtain ⟨hdown, hup⟩ := htie hkept hhalf
    have hpos := spacing_pos n
    have hbelow : n / spacing n * spacing n ≤ n := Nat.div_mul_le_self _ _
    rw [hdown, hup, Nat.mul_left_inj (Nat.ne_of_gt hpos)]
    constructor
    · rintro hdouble ⟨hlt, -, -, heven⟩
      rw [Nat.mod_eq_zero_of_dvd heven, Nat.add_zero] at hdouble
      exact hdouble.elim (by omega) fun hle => absurd hle.1 (by omega)
    · intro hslips
      by_cases hlt : n < 1 <<< 1024
      · have hodd : ¬2 ∣ n / spacing n := fun heven => hslips ⟨hlt, hkept, hhalf, heven⟩
        left
        omega
      · -- both are past the greatest double
        have hlarge : 1 <<< 1024 ≤ n / spacing n * spacing n := by
          have hpower {e : Nat} (he : e ≤ n.log2) : 1 <<< e ≤ 2 ^ n.log2 := by
            rw [Nat.one_shiftLeft]
            exact Nat.pow_le_pow_right (by decide) he
          exact Nat.le_trans (hpower (le_log2 (Nat.le_of_not_lt hlt))) (full_below hlog).2
        right
        constructor
        · exact Nat.le_trans hlarge (Nat.mul_le_mul_right _ (Nat.le_add_right _ _))
        · exact Nat.le_trans hlarge (Nat.mul_le_mul_right _ (Nat.le_succ _))
  · rw [hsame (.inr hhalf)]
    exact ⟨fun _ hslips => hhalf hslips.2.2.1, fun _ => .inl rfl⟩

end Slips

/-! ## Literals -/

/-- The number that digits denote in a base, the last of them counting ones. -/
def radixValue (base : Nat) (digits : List Char) : Nat :=
  Nat.ofDigits base (digits.map digitValue).reverse

/-- The bases are powers of two. -/
theorem exists_two_pow_of_radixBase? {mark : Char} {base : Nat}
    (h : NumericLiteral.radixBase? mark = some base) : ∃ s, 0 < s ∧ s ≤ 53 ∧ base = 2 ^ s := by
  unfold NumericLiteral.radixBase? at h
  split at h
  · cases h
    exact ⟨4, by decide⟩
  · split at h
    · cases h
      exact ⟨3, by decide⟩
    · split at h
      · cases h
        exact ⟨1, by decide⟩
      · cases h

/-- A text that is a mark and digits of its base is read in that base. -/
theorem ofText_of_radixBase? {mark : Char} {base : Nat}
    (hbase : NumericLiteral.radixBase? mark = some base) {digits : List Char}
    (hne : digits ≠ []) (hdigits : ∀ c ∈ digits, NumericLiteral.isDigitIn base c = true)
    {text : String} (htext : text.toList = '0' :: mark :: digits) :
    ofText text = ofRadixDigits base (digits.map digitValue) := by
  obtain ⟨-, digit, hmark, hdigit⟩ := NumericLiteral.exists_digit_of_radixBase? hbase
  have hnumeric : NumericText ('0' :: mark :: digits) :=
    .radix hmark ⟨hne, fun c hc => (hdigit c).1 (hdigits c hc)⟩
  have hstrip : trimBlank ('0' :: mark :: digits) = '0' :: mark :: digits :=
    trimBlank_of_no_blank fun c hc => isBlank_of_isVisible (hnumeric.isVisible c hc)
  have hall : digits.all (NumericLiteral.isDigitIn base) = true := List.all_eq_true.2 hdigits
  have hparse : NumericLiteral.parse text.toList = some (.radix base (digits.map digitValue)) := by
    rw [NumericLiteral.parse, htext, hstrip,
      NumericLiteral.parseTrimmed_of_radixBase? hbase hne, NumericLiteral.radixDigits?, if_pos hall]
  unfold ofText
  rw [hparse]
  rfl

/-- **What literals in base sixteen, eight and two denote.** A literal denotes the double of its
number with zeros for the lost digits. This is the nearest double of the number except where reading
slips; there it is the double below. So a number that is a double is read as it is. -/
theorem ofText_radix {mark : Char} {base : Nat}
    (hbase : NumericLiteral.radixBase? mark = some base) {digits : List Char} (hne : digits ≠ [])
    (hdigits : ∀ c ∈ digits, NumericLiteral.isDigitIn base c = true) {text : String}
    (htext : text.toList = '0' :: mark :: digits) :
    ofText text = ofNat (kept base (radixValue base digits)) ∧
      ((ofText text).IsNearest (radixValue base digits) ↔
        ¬Slips base (radixValue base digits)) ∧
      (Slips base (radixValue base digits) →
        ofText text = ofNat (radixValue base digits / spacing (radixValue base digits) *
          spacing (radixValue base digits))) ∧
      ∀ h : Representable (radixValue base digits * one),
        ofText text = .finite false ⟨radixValue base digits * one, h⟩ := by
  obtain ⟨s, hs, hle, rfl⟩ := exists_two_pow_of_radixBase? hbase
  have hvalues : ∀ d ∈ digits.map digitValue, d < 2 ^ s := by
    intro d hd
    obtain ⟨c, hc, rfl⟩ := List.mem_map.1 hd
    have hdigit := hdigits c hc
    rw [NumericLiteral.isDigitIn, Bool.and_eq_true] at hdigit
    exact of_decide_eq_true hdigit.2
  have hread : ofText text = ofNat (kept (2 ^ s) (radixValue (2 ^ s) digits)) := by
    rw [ofText_of_radixBase? hbase hne hdigits htext, ofRadixDigits_eq hs hle _ hvalues, radixValue]
  have hnearest : (ofText text).IsNearest (radixValue (2 ^ s) digits) ↔
      ¬Slips (2 ^ s) (radixValue (2 ^ s) digits) := by
    rw [isNearest_iff, hread]
    exact ofNat_kept_eq_iff _ s
  refine ⟨hread, hnearest, fun hslips => hread.trans hslips.ofNat_kept, fun h => ?_⟩
  rw [hread, kept_of_representable h]
  exact ofNat_of_representable h

/-- Digits are lost without harm where they do not make a tie, and none are where the number is a
double. -/
theorem ofText_radix_harmless :
    (ofText "0x10000000000001ff").IsNearest 0x10000000000001ff ∧
      ∃ h, ofText "0X1000000000000200" = .finite false ⟨0x1000000000000200 * one, h⟩ := by
  have hdigits : "10000000000001ff".toList.all (NumericLiteral.isDigitIn 16) = true := rfl
  have hdigits' : "1000000000000200".toList.all (NumericLiteral.isDigitIn 16) = true := rfl
  have hvalue : radixValue 16 "10000000000001ff".toList = 0x10000000000001ff := rfl
  have hvalue' : radixValue 16 "1000000000000200".toList = 0x1000000000000200 := rfl
  have htext : "0x10000000000001ff".toList = '0' :: 'x' :: "10000000000001ff".toList := rfl
  have htext' : "0X1000000000000200".toList = '0' :: 'X' :: "1000000000000200".toList := rfl
  have hlossy := ofText_radix (rfl : NumericLiteral.radixBase? 'x' = some 16) (by decide)
    (List.all_eq_true.1 hdigits) htext
  have hexact := ofText_radix (rfl : NumericLiteral.radixBase? 'X' = some 16) (by decide)
    (List.all_eq_true.1 hdigits') htext'
  rw [hvalue] at hlossy
  rw [hvalue'] at hexact
  exact ⟨hlossy.2.1.2 (by decide +kernel), by decide +kernel, hexact.2.2.2 _⟩

/-- The last digit of this literal is lost, and the tie that it would break goes down. The same
number in base ten is read as its nearest double. -/
theorem ofText_radix_slips :
    ¬(ofText "0x1000000000000081").IsNearest 0x1000000000000081 ∧
      (ofText "1152921504606847105").IsNearest 0x1000000000000081 := by
  rw [isNearest_iff, isNearest_iff]
  decide +kernel

end EcmaCore.Double
