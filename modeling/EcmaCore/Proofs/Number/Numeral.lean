import EcmaCore.Engine.Convert
import EcmaCore.Number.Text
import EcmaCore.Proofs.Action
import EcmaCore.Proofs.Number.Equality
import EcmaCore.Proofs.Number.IntegerPart
import EcmaCore.Proofs.Number.Literal

/-!
# Integers as text

An integer below the bound is written as its numeral: its digits without a zero in front, behind a
minus sign only if it is negative. There is one such text. Read as a number it gives the integer
back, and as a property key it is the key of the Number, whichever zero the Number is. So different
integers have different keys, and these are the keys that the elements of an array-like object are
read from.

## Main results

* `isIntegerText_iff`: the numeral is the only canonical text of an integer.
* `Double.text_of_integer`, `Double.ofText_intNumeral`: writing and reading integers.
* `Engine.listFromArrayLike_eq_readEach`: the keys of elements.
* `Engine.integer_numerals`: all of this about one integer.
-/

namespace EcmaCore

/-! ## Canonical numerals -/

/-- Decimal digits that denote a natural number, with no zero in front of others. -/
structure IsCanonicalNumeral (n : Nat) (t : List Char) : Prop where
  digits : IsNumeral IsDecimalDigit t
  value : numeralValue t = n
  no_leading_zero : ∀ rest, t = '0' :: rest → rest = []

/-- The canonical text of an integer: its magnitude, behind a minus sign if it is negative. -/
inductive IsIntegerText : Int → List Char → Prop
  | natural {n : Nat} {t : List Char} (h : IsCanonicalNumeral n t) : IsIntegerText n t
  | negative {n : Nat} {t : List Char} (h : IsCanonicalNumeral n t) (hpos : 0 < n) :
      IsIntegerText (-n) ('-' :: t)

theorem numeral_of_lt {n : Nat} (h : n < 10) : numeral n = [digitChar n] := by
  rw [numeral, if_pos h]

theorem numeral_of_le {n : Nat} (h : 10 ≤ n) :
    numeral n = numeral (n / 10) ++ [digitChar n] := by
  rw [numeral, if_neg (Nat.not_lt.2 h)]

theorem numeralValue_append (t : List Char) (c : Char) :
    numeralValue (t ++ [c]) = 10 * numeralValue t + digitValue c := by
  rw [numeralValue, List.foldl_append, numeralValue, List.foldl_cons, List.foldl_nil]

/-- Only the numeral of zero starts with a zero. -/
theorem eq_zero_of_numeral {n : Nat} {rest : List Char} (h : numeral n = '0' :: rest) :
    n = 0 ∧ rest = [] := by
  induction n using Nat.strongRecOn generalizing rest with
  | ind n ih =>
      rcases Nat.lt_or_ge n 10 with hlt | hge
      · rw [numeral_of_lt hlt] at h
        obtain ⟨hdigit, hrest⟩ := List.cons.inj h
        have hvalue := digitValue_digitChar n
        rw [hdigit] at hvalue
        have hzero : digitValue '0' = 0 := by decide
        exact ⟨by omega, hrest.symm⟩
      · rw [numeral_of_le hge] at h
        obtain ⟨digit, digits, hdigits⟩ := List.exists_cons_of_ne_nil (numeral_ne_nil (n / 10))
        rw [hdigits, List.cons_append] at h
        obtain ⟨rfl, -⟩ := List.cons.inj h
        have hfront := ih (n / 10) (by omega) hdigits
        omega

theorem isCanonicalNumeral_numeral (n : Nat) : IsCanonicalNumeral n (numeral n) where
  digits := ⟨numeral_ne_nil n, fun _ hc =>
    (isDecimalDigit_iff _).1 (isDecimalDigit_of_mem_numeral hc)⟩
  value := value_numeral n
  no_leading_zero _ h := (eq_zero_of_numeral h).2

/-- A decimal digit is the digit of its value. -/
theorem IsDecimalDigit.eq_digitChar {c : Char} (h : IsDecimalDigit c) :
    digitValue c < 10 ∧ ∀ n, n % 10 = digitValue c → digitChar n = c := by
  have hrange : 48 ≤ c.toNat ∧ c.toNat ≤ 57 := h
  have hvalue : digitValue c = c.toNat - 48 := if_pos h
  refine ⟨by omega, fun n hn => ?_⟩
  have hcode : 48 + n % 10 = c.toNat := by omega
  rw [digitChar, hcode, Char.ofNat_toNat]

/-- **There is one canonical numeral.** -/
theorem isCanonicalNumeral_iff (n : Nat) (t : List Char) :
    IsCanonicalNumeral n t ↔ t = numeral n := by
  constructor
  · intro h
    induction t using List.reverseRecOn generalizing n with
    | nil => exact absurd rfl h.digits.ne_nil
    | append_singleton t c ih =>
        obtain ⟨⟨-, hdigits⟩, hvalue, hlead⟩ := h
        obtain ⟨hfront, hlast⟩ := List.forall_mem_append.1 hdigits
        obtain ⟨hlt, hdigit⟩ := (hlast c (List.mem_singleton_self c)).eq_digitChar
        rw [numeralValue_append] at hvalue
        cases t with
        | nil =>
            have hsmall : n = digitValue c := by
              rw [← hvalue]
              exact Nat.zero_add _
            rw [numeral_of_lt (by omega), hdigit n (by omega), List.nil_append]
        | cons digit digits =>
            -- the digits in front are canonical as well, and they are not the one zero
            have hne (rest : List Char) : digit :: digits ≠ '0' :: rest := by
              intro heq
              have hempty := hlead (rest ++ [c]) (by rw [heq, List.cons_append])
              exact absurd hempty (by simp)
            have hprior : digit :: digits = numeral (numeralValue (digit :: digits)) :=
              ih _ ⟨⟨List.cons_ne_nil _ _, hfront⟩, rfl, fun rest heq => absurd heq (hne rest)⟩
            have hpos : numeralValue (digit :: digits) ≠ 0 := by
              intro hzero
              rw [hzero] at hprior
              exact hne [] (hprior.trans (numeral_of_lt (by decide)))
            have hquotient : n / 10 = numeralValue (digit :: digits) := by omega
            rw [numeral_of_le (by omega), hquotient, ← hprior, hdigit n (by omega)]
  · rintro rfl
    exact isCanonicalNumeral_numeral n

/-- **The numeral of an integer is its only canonical text.** -/
theorem isIntegerText_iff (i : Int) (t : List Char) : IsIntegerText i t ↔ t = intNumeral i := by
  constructor
  · intro h
    cases h with
    | natural h =>
        rw [intNumeral, if_neg (by omega), Int.natAbs_natCast]
        exact (isCanonicalNumeral_iff _ t).1 h
    | @negative n t h hpos =>
        rw [intNumeral, if_pos (by omega), Int.natAbs_neg, Int.natAbs_natCast]
        exact congrArg ('-' :: ·) ((isCanonicalNumeral_iff n t).1 h)
  · rintro rfl
    have hcanonical := isCanonicalNumeral_numeral i.natAbs
    unfold intNumeral
    split
    · next hneg =>
      have htext := IsIntegerText.negative hcanonical (by omega)
      rwa [show -(i.natAbs : Int) = i by omega] at htext
    · next hneg =>
      have htext := IsIntegerText.natural hcanonical
      rwa [show (i.natAbs : Int) = i by omega] at htext

namespace IsIntegerText

variable {i : Int} {t : List Char}

theorem mem (h : IsIntegerText i t) : ∀ c ∈ t, c = '-' ∨ IsDecimalDigit c := by
  cases h with
  | natural h => exact fun c hc => .inr (h.digits.digits c hc)
  | negative h _ =>
      exact List.forall_mem_cons.2 ⟨.inl rfl, fun c hc => .inr (h.digits.digits c hc)⟩

theorem no_leading_zero (h : IsIntegerText i t) : ∀ rest, t = '0' :: rest → rest = [] := by
  cases h with
  | natural h => exact h.no_leading_zero
  | negative h _ => exact nofun

end IsIntegerText

theorem intNumeral_natCast (n : Nat) : intNumeral n = numeral n := by
  rw [intNumeral, if_neg (by omega), Int.natAbs_natCast]

/-- Different integers have different numerals. -/
theorem intNumeral_injective {i j : Int} (h : intNumeral i = intNumeral j) : i = j := by
  have hsign (k : Int) (rest : List Char) (hk : numeral k.natAbs = '-' :: rest) : False := by
    have hdigit := (isCanonicalNumeral_numeral k.natAbs).digits.digits '-' (by
      rw [hk]
      exact List.mem_cons_self)
    exact absurd hdigit (by decide)
  unfold intNumeral at h
  split at h <;> split at h
  · have habs := numeral_injective (List.cons.inj h).2
    omega
  · exact absurd h.symm (hsign j _)
  · exact absurd h (hsign i _)
  · have habs := numeral_injective h
    omega

/-! ## Writing integers -/

namespace Number

/-- A Number is an integer below the bound in magnitude; zero may have either sign. -/
def IsInteger (n : Number) (i : Int) : Prop :=
  i.natAbs < integerBound ∧ n.toDouble.eq (.ofInt i) = true

end Number

namespace Double

/-- Integers below the bound are written in full. -/
theorem magnitudeText_integer {n : Nat} (hpos : 0 < n) (h : n < Number.integerBound) :
    magnitudeText (n * one) = numeral n := by
  have hlarge : n < powerOfTen 21 := Nat.lt_trans h (by decide)
  have hsmall : tenthPower 6 ≤ one := by decide +kernel
  have hone : one ≤ n * one := Nat.le_mul_of_pos_left one hpos
  unfold magnitudeText
  rw [if_neg, if_pos (Nat.mul_mod_left n one), Nat.mul_div_cancel n one_pos]
  rintro (hle | hlt)
  · exact absurd (Nat.le_of_mul_le_mul_right hle one_pos) (Nat.not_le.2 hlarge)
  · omega

theorem text_finite (negative : Bool) (magnitude : { units : Nat // Representable units }) :
    (finite negative magnitude).text =
      if magnitude.val = 0 then ['0']
      else if negative then '-' :: magnitudeText magnitude.val
      else magnitudeText magnitude.val :=
  rfl

theorem ofInt_eq {i : Int} (hi : i.natAbs < Number.integerBound) :
    ofInt i = .finite (decide (i < 0))
      ⟨i.natAbs * one, representable_mul_one (Nat.le_of_lt hi)⟩ :=
  ofUnits_val (decide (i < 0)) ⟨i.natAbs * one, representable_mul_one (Nat.le_of_lt hi)⟩

/-- What is numerically equal to an integer is its double, except for the sign of zero. -/
theorem exists_finite_of_eq {x : Double} {i : Int} (hi : i.natAbs < Number.integerBound)
    (hx : x.eq (ofInt i) = true) :
    ∃ negative, x = .finite negative
        ⟨i.natAbs * one, representable_mul_one (Nat.le_of_lt hi)⟩ ∧
      (i ≠ 0 → negative = decide (i < 0)) := by
  rw [ofInt_eq hi] at hx
  cases x with
  | nan | infinity => cases hx
  | finite negative magnitude =>
      rcases (eq_iff _ _).1 hx with ⟨hsame, -⟩ | ⟨hzero, hzero'⟩
      · cases hsame
        exact ⟨_, rfl, fun _ => rfl⟩
      · have hunits : magnitude.val = 0 := beq_iff_eq.1 hzero
        have hunits' : i.natAbs * one = 0 := beq_iff_eq.1 hzero'
        have hi0 : i.natAbs = 0 := (mul_one_eq_zero_iff _).1 hunits'
        refine ⟨negative, ?_, fun hne => absurd (Int.natAbs_eq_zero.1 hi0) hne⟩
        exact congrArg (finite negative) (Subtype.ext (hunits.trans hunits'.symm))

/-- **Integers are written as their numerals**, zero without its sign. -/
theorem text_of_integer {x : Double} {i : Int} (hi : i.natAbs < Number.integerBound)
    (hx : x.eq (ofInt i) = true) : x.text = intNumeral i := by
  obtain ⟨negative, rfl, hsign⟩ := exists_finite_of_eq hi hx
  rw [text_finite, intNumeral]
  by_cases hi0 : i = 0
  · subst hi0
    have hunits : (0 : Int).natAbs * one = 0 := Nat.zero_mul one
    rw [if_pos hunits, if_neg (Int.lt_irrefl 0)]
    exact (numeral_of_lt (n := 0) (by decide)).symm
  · have hunits : i.natAbs * one ≠ 0 := (mul_one_eq_zero_iff _).not.2 (Int.natAbs_ne_zero.2 hi0)
    rw [if_neg hunits, hsign hi0, magnitudeText_integer (Int.natAbs_pos.2 hi0) hi]
    simp only [decide_eq_true_eq]

/-! ## Reading integers -/

theorem digitCount_le {n : Nat} (k : Nat) (h : n < powerOfTen k) : digitCount n ≤ k := by
  induction k generalizing n with
  | zero =>
      have hzero : n = 0 := Nat.lt_one_iff.1 h
      rw [hzero, digitCount, if_pos rfl]
  | succ k ih =>
      have hpower : powerOfTen (k + 1) = powerOfTen k * 10 := rfl
      rw [digitCount]
      split
      · exact Nat.zero_le _
      · have hfront := ih (n := n / 10) (by omega)
        omega

/-- Whole decimals below the bound are integers. -/
theorem ofDecimal_natCast {n : Nat} (negative : Bool) (h : n < Number.integerBound) :
    ofDecimal negative ⟨n, 0⟩ = ofUnits negative (n * one) := by
  have hcount : digitCount n ≤ 16 := digitCount_le 16 (Nat.lt_trans h (by decide))
  unfold ofDecimal
  dsimp only
  by_cases hzero : n = 0
  · rw [if_pos (.inl hzero), hzero, Nat.zero_mul]
  · have hpower : powerOfTen 0 = 1 := rfl
    rw [if_neg (by omega), if_neg (by omega)]
    rw [show (0 : Int).toNat = 0 from rfl, show (-(0 : Int)).toNat = 0 from rfl, hpower,
      Nat.mul_one]
    rfl

end Double

namespace NumericLiteral

/-- A numeral is read as a mantissa without a point. -/
theorem mantissa?_numeral (n : Nat) : mantissa? (numeral n) = some ⟨n, 0⟩ := by
  have hdigits : ∀ c ∈ numeral n, isDecimalDigit c = true :=
    fun c hc => isDecimalDigit_of_mem_numeral hc
  have hwhole : (numeral n).takeWhile isDecimalDigit = numeral n :=
    List.takeWhile_eq_self_iff.2 hdigits
  have hrest : (numeral n).dropWhile isDecimalDigit = [] := List.dropWhile_eq_nil_iff.2 hdigits
  unfold mantissa?
  simp only [hwhole, hrest]
  rw [if_neg (numeral_ne_nil n), value_numeral]

theorem splitSign_intNumeral (i : Int) :
    splitSign (intNumeral i) = (decide (i < 0), numeral i.natAbs) := by
  unfold intNumeral
  split
  · next hneg =>
    rw [decide_eq_true hneg]
    rfl
  · next hneg =>
    have hdigits := (isCanonicalNumeral_numeral i.natAbs).digits
    obtain ⟨digit, digits, hnumeral⟩ := List.exists_cons_of_ne_nil hdigits.ne_nil
    have hdigit := (hdigits.digits digit (by rw [hnumeral]; exact List.mem_cons_self)).ne_sign
    rw [hnumeral, decide_eq_false hneg]
    unfold splitSign
    split
    · next heq => exact absurd (List.cons.inj heq).1 hdigit.2
    · next heq => exact absurd (List.cons.inj heq).1 hdigit.1
    · rfl

/-- The text of an integer is read as a decimal literal without an exponent. -/
theorem decimal?_intNumeral (i : Int) :
    decimal? (intNumeral i) = some (.decimal (decide (i < 0)) ⟨i.natAbs, 0⟩) := by
  have hdigits : ∀ c ∈ numeral i.natAbs, (!isExponentMark c) = true :=
    notMark_of_mantissa (.whole (isCanonicalNumeral_numeral i.natAbs).digits)
  have hmantissa : (numeral i.natAbs).takeWhile (!isExponentMark ·) = numeral i.natAbs :=
    List.takeWhile_eq_self_iff.2 hdigits
  have hrest : (numeral i.natAbs).dropWhile (!isExponentMark ·) = [] :=
    List.dropWhile_eq_nil_iff.2 hdigits
  unfold decimal?
  rw [splitSign_intNumeral]
  simp only [hmantissa, hrest, mantissa?_numeral]
  rfl

theorem parseTrimmed_intNumeral (i : Int) :
    parseTrimmed (intNumeral i) = some (.decimal (decide (i < 0)) ⟨i.natAbs, 0⟩) := by
  have hchars := (isIntegerText_iff i _).2 rfl |>.mem
  have hletter {t : List Char} (ht : 'n' ∈ t) : intNumeral i ≠ t := by
    intro heq
    rcases hchars 'n' (heq ▸ ht) with hminus | hdigit
    · exact absurd hminus (by decide)
    · exact absurd hdigit (by decide)
  have hlead : ∀ rest, intNumeral i = '0' :: rest → rest = [] :=
    (isIntegerText_iff i _).2 rfl |>.no_leading_zero
  have hne : intNumeral i ≠ [] := by
    intro hnil
    cases (isIntegerText_iff i _).2 hnil.symm with
    | natural h => exact h.digits.ne_nil rfl
  unfold parseTrimmed
  rw [if_neg hne, if_neg (not_or.2 ⟨hletter (by decide), hletter (by decide)⟩),
    if_neg (hletter (by decide))]
  split
  · next heq => exact absurd (hlead _ heq) (List.cons_ne_nil _ _)
  · exact decimal?_intNumeral i

end NumericLiteral

namespace Double

/-- **Reading the text of an integer gives the integer.** -/
theorem ofText_intNumeral {i : Int} (hi : i.natAbs < Number.integerBound) :
    ofText (String.ofList (intNumeral i)) = ofInt i := by
  have hblank : ∀ c ∈ intNumeral i, isBlank c = false := by
    intro c hc
    rcases ((isIntegerText_iff i _).2 rfl).mem c hc with rfl | hdigit
    · decide
    · exact isBlank_of_isVisible hdigit.isVisible
  have hparse : NumericLiteral.parse (String.ofList (intNumeral i)).toList =
      some (.decimal (decide (i < 0)) ⟨i.natAbs, 0⟩) := by
    rw [NumericLiteral.parse, String.toList_ofList, trimBlank_of_no_blank hblank,
      NumericLiteral.parseTrimmed_intNumeral]
  unfold ofText
  rw [hparse]
  exact ofDecimal_natCast (decide (i < 0)) hi

end Double

/-! ## Keys -/

/-- The property key of a Number: its text. -/
def Number.key (n : Number) : PropertyKey := .text n.toDouble.toText

theorem Number.key_of_isInteger {n : Number} {i : Int} (h : n.IsInteger i) :
    n.key = .text (String.ofList (intNumeral i)) := by
  rw [Number.key, Double.toText, Double.text_of_integer h.1 h.2]

/-- Different integers have different keys. -/
theorem Number.key_inj {m n : Number} {i j : Int} (hm : m.IsInteger i) (hn : n.IsInteger j) :
    m.key = n.key ↔ i = j := by
  rw [Number.key_of_isInteger hm, Number.key_of_isInteger hn]
  constructor
  · intro h
    rw [PropertyKey.text.injEq, String.ofList_inj] at h
    exact intNumeral_injective h
  · rintro rfl
    rfl

theorem Number.isInteger_ofInt {i : Int} (hi : i.natAbs < Number.integerBound) :
    (Number.ofInt i).IsInteger i := by
  refine ⟨hi, ?_⟩
  rw [Number.ofInt, Number.toDouble_ofDouble, Double.eq_iff, Double.ofInt_eq hi]
  exact .inl ⟨rfl, rfl⟩

/-- The key of a position is the key of the Number that counts it. -/
theorem Number.key_ofInt_natCast {i : Nat} (hi : i < Number.integerBound) :
    (Number.ofInt i).key = .ofIndex i := by
  rw [Number.key_of_isInteger (Number.isInteger_ofInt (by omega)), intNumeral_natCast]
  rfl

namespace Engine

variable {σ : Type}

/-- Reads properties one after the other and holds on to what was read meanwhile. -/
def readEach (E : Engine σ) (o : ObjectId) (gathered : List Entity) :
    List PropertyKey → Action σ (List Value)
  | [] => return []
  | key :: keys => do
      let v ← (E.getProperty o key).holding gathered
      return v :: (← E.readEach o (v.entities ++ gathered) keys)

/-- The loop over the positions reads the keys of the Numbers that count them. -/
theorem elementsFrom_eq_readEach (E : Engine σ) (o : ObjectId) {position left : Nat}
    (h : position + left ≤ Number.integerBound) (read : List Value) (gathered : List Entity) :
    E.elementsFrom o position read gathered left =
      (read.reverse ++ ·) <$> E.readEach o gathered
        ((List.range' position left).map fun i : Nat => (Number.ofInt i).key) := by
  induction left generalizing position read gathered with
  | zero =>
      rw [List.range'_zero, List.map_nil, readEach, map_pure, List.append_nil]
      rfl
  | succ left ih =>
      rw [List.range'_succ, List.map_cons, readEach, Number.key_ofInt_natCast (by omega), map_bind]
      refine Action.bind_congr_next fun v => ?_
      rw [ih (by omega), bind_pure_comp, Functor.map_map]
      simp only [List.reverse_cons, List.append_assoc, List.singleton_append]

/-- **The elements of an array-like object** are its properties with the keys of the Numbers from
zero up to its length. -/
theorem listFromArrayLike_eq_readEach (E : Engine σ) (o : ObjectId) :
    E.listFromArrayLike (.object o) = (do
      let length ← E.getProperty o "length"
      Action.holding length.entities do
        let count ← E.toWord length
        E.readEach o [] ((List.range count.toNat).map fun i : Nat => (Number.ofInt i).key)) := by
  have hread (count : UInt32) : E.elementsFrom o 0 [] [] count.toNat =
      E.readEach o [] ((List.range count.toNat).map fun i : Nat => (Number.ofInt i).key) := by
    have hcount : count.toNat < 4294967296 := count.toNat_lt
    have hbound : 0 + count.toNat ≤ Number.integerBound := by
      have hlarge : 4294967296 ≤ Number.integerBound := by decide
      omega
    rw [elementsFrom_eq_readEach E o hbound, List.range_eq_range']
    exact id_map' _
  simp only [listFromArrayLike, hread]

/-- Numbers are converted to their keys, and so are the texts of Numbers. -/
theorem toPropertyKey_number (E : Engine σ) (n : Number) (w : World σ) :
    E.toPropertyKey (.number n) w = .ok n.key w ∧
      E.toPropertyKey (.string n.toDouble.toText) w = .ok n.key w :=
  ⟨rfl, rfl⟩

/-- **Integers as text.** A Number that is an integer below the bound in magnitude, or either zero,
is written as the only canonical text of the integer, and reading this text gives the integer. The
key of the Number is the key of the text, and different integers have different keys. The elements
of an array-like object are read from the keys of the Numbers that count them, one after the
other. -/
theorem integer_numerals (E : Engine σ) :
    (∀ (n : Number) (i : Int), n.IsInteger i →
      (∀ t, IsIntegerText i t ↔ t = n.toDouble.text) ∧
      Double.ofText n.toDouble.toText = .ofInt i ∧
      (∀ w, E.toPropertyKey (.number n) w = .ok n.key w ∧
        E.toPropertyKey (.string n.toDouble.toText) w = .ok n.key w) ∧
      ∀ (m : Number) (j : Int), m.IsInteger j → (m.key = n.key ↔ j = i)) ∧
    ∀ o, E.listFromArrayLike (.object o) = (do
      let length ← E.getProperty o "length"
      Action.holding length.entities do
        let count ← E.toWord length
        E.readEach o [] ((List.range count.toNat).map fun i : Nat => (Number.ofInt i).key)) := by
  refine ⟨fun n i h => ?_, E.listFromArrayLike_eq_readEach⟩
  have htext : n.toDouble.text = intNumeral i := Double.text_of_integer h.1 h.2
  refine ⟨fun t => ?_, ?_, E.toPropertyKey_number n, fun m j hm => Number.key_inj hm h⟩
  · rw [htext]
    exact isIntegerText_iff i t
  · rw [Double.toText, htext]
    exact Double.ofText_intNumeral h.1

/-- The least integer above the negative bound is written with all of its digits, and minus zero
without its sign. -/
theorem integer_numerals_least :
    Number.key (.integer (-9007199254740991)) = .text "-9007199254740991" ∧
      Double.ofText "-9007199254740991" = .ofInt (-9007199254740991) ∧
      Number.key (.float Double.zero.neg) = Number.key (.integer 0) := by
  have hleast : (Number.integer (-9007199254740991)).IsInteger (-9007199254740991) :=
    ⟨by decide, by decide +kernel⟩
  have hzero : (Number.float Double.zero.neg).IsInteger 0 := ⟨by decide, by decide +kernel⟩
  have hzero' : (Number.integer 0).IsInteger 0 := ⟨by decide, by decide +kernel⟩
  obtain ⟨htext, hread, -, -⟩ := (integer_numerals (@exhausted Unit)).1 _ _ hleast
  obtain ⟨-, -, -, hkeys⟩ := (integer_numerals (@exhausted Unit)).1 _ _ hzero'
  have hdigits : IsCanonicalNumeral 9007199254740991 "9007199254740991".toList :=
    (isCanonicalNumeral_iff _ _).2 (by decide +kernel)
  have hwritten : "-9007199254740991".toList =
      (Number.integer (-9007199254740991)).toDouble.text :=
    (htext _).1 (.negative hdigits (by decide))
  have hstring : (Number.integer (-9007199254740991)).toDouble.toText = "-9007199254740991" := by
    rw [Double.toText, ← hwritten, String.ofList_toList]
  rw [hstring] at hread
  exact ⟨congrArg PropertyKey.text hstring, hread, (hkeys _ 0 hzero).2 rfl⟩

end Engine

end EcmaCore
