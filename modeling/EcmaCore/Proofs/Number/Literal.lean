import EcmaCore.Number.Literal
import EcmaCore.Proofs.Integer
import Mathlib.Data.List.DropRight

/-!
# Which texts denote numbers

The grammar of numeric texts is given here as inductive predicates: an optional sign, a
mantissa of digits with at most one point, an exponent, and the three radix marks. The
recogniser trims a text, tests for prefixes and counts digits instead; both accept the
same texts.

What is trimmed is one character more than the white space and the line terminators of
the language: U+0085 has the property `White_Space`, and is neither of them. No numeric
text contains it, so a text that is accepted with it should not be.

## Main results

* `NumericLiteral.decimal?_isSome_iff`: the recogniser of decimal literals and the grammar.
* `NumericLiteral.parseTrimmed_isSome_iff`: the recogniser of all literals and the grammar.
* `NumericLiteral.isNaN_value`: every literal that is recognised has a number.
* `Double.ofText_spec`: which texts denote numbers, and where this is not what the language
  says.
-/

namespace EcmaCore

/-! ## The grammar -/

/-- The Unicode category `Zs`. -/
def isSpaceSeparator (c : Char) : Bool :=
  let code := c.toNat
  code == 0x0020 || code == 0x00a0 || code == 0x1680 || (0x2000 ≤ code && code ≤ 0x200a)
    || code == 0x202f || code == 0x205f || code == 0x3000

/-- White space of the language: tabs, the form feed, the byte order mark and the category
`Zs`. -/
def isWhiteSpace (c : Char) : Bool :=
  c == '\t' || c == '\x0b' || c == '\x0c' || c == '\ufeff' || isSpaceSeparator c

/-- The line terminators of the language. -/
def isLineTerminator (c : Char) : Bool :=
  c == '\n' || c == '\r' || c == '\u2028' || c == '\u2029'

/-- What the language strips from both ends of a text before it reads a number. -/
def isStrippable (c : Char) : Bool := isWhiteSpace c || isLineTerminator c

/-- A text without the characters of a kind at its ends. -/
def stripEnds (p : Char → Bool) (text : List Char) : List Char :=
  (text.dropWhile p).rdropWhile p

/-- A text behind an optional sign. -/
inductive Signed (P : List Char → Prop) : List Char → Prop
  | unsigned {t : List Char} (h : P t) : Signed P t
  | plus {t : List Char} (h : P t) : Signed P ('+' :: t)
  | minus {t : List Char} (h : P t) : Signed P ('-' :: t)

/-- One or more of the digits of a kind. -/
structure IsNumeral (digit : Char → Prop) (t : List Char) : Prop where
  ne_nil : t ≠ []
  digits : ∀ c ∈ t, digit c

/-- The ten digits. -/
def IsDecimalDigit (c : Char) : Prop := '0' ≤ c ∧ c ≤ '9'

/-- The ten digits and the letters that count from ten to fifteen. -/
def IsHexDigit (c : Char) : Prop :=
  IsDecimalDigit c ∨ 'a' ≤ c ∧ c ≤ 'f' ∨ 'A' ≤ c ∧ c ≤ 'F'

/-- Digits with at most one point among them, and at least one digit. -/
inductive IsMantissa : List Char → Prop
  | whole {t : List Char} (h : IsNumeral IsDecimalDigit t) : IsMantissa t
  | point {whole fraction : List Char} (h : IsNumeral IsDecimalDigit (whole ++ fraction)) :
      IsMantissa (whole ++ '.' :: fraction)

/-- A mantissa, and perhaps an exponent of at least one digit. -/
inductive IsUnsignedDecimal : List Char → Prop
  | plain {t : List Char} (h : IsMantissa t) : IsUnsignedDecimal t
  | scaled {t exponent : List Char} {mark : Char} (h : IsMantissa t)
      (hmark : mark = 'e' ∨ mark = 'E') (hexponent : Signed (IsNumeral IsDecimalDigit) exponent) :
      IsUnsignedDecimal (t ++ mark :: exponent)

/-- The mark of a base and the digits behind it. -/
inductive RadixMark : Char → (Char → Prop) → Prop
  | hexadecimal {mark : Char} (h : mark = 'x' ∨ mark = 'X') : RadixMark mark IsHexDigit
  | octal {mark : Char} (h : mark = 'o' ∨ mark = 'O') :
      RadixMark mark fun c => '0' ≤ c ∧ c ≤ '7'
  | binary {mark : Char} (h : mark = 'b' ∨ mark = 'B') :
      RadixMark mark fun c => c = '0' ∨ c = '1'

/-- The texts that denote numbers once their ends are stripped. -/
inductive NumericText : List Char → Prop
  | empty : NumericText []
  | infinity {t : List Char} (h : Signed (· = "Infinity".toList) t) : NumericText t
  | decimal {t : List Char} (h : Signed IsUnsignedDecimal t) : NumericText t
  | radix {mark : Char} {digit : Char → Prop} {t : List Char} (hmark : RadixMark mark digit)
      (h : IsNumeral digit t) : NumericText ('0' :: mark :: t)

/-! ## Stripping -/

section Stripping

variable {p : Char → Bool} {text t : List Char}

/-- What is stripped are characters of the kind. -/
theorem exists_stripEnds (p : Char → Bool) (text : List Char) :
    ∃ front back, text = front ++ stripEnds p text ++ back ∧
      (∀ c ∈ front, p c = true) ∧ ∀ c ∈ back, p c = true := by
  refine ⟨text.takeWhile p, (text.dropWhile p).rtakeWhile p, ?_, ?_, ?_⟩
  · rw [stripEnds, List.append_assoc, List.rdropWhile_append_rtakeWhile,
      List.takeWhile_append_dropWhile]
  · exact fun c hc => List.mem_takeWhile_imp hc
  · exact fun c hc => List.mem_rtakeWhile_imp hc

/-- Characters of another kind stay. -/
theorem dropWhile_eq_self (h : ∀ c ∈ t, p c = false) : t.dropWhile p = t := by
  cases t with
  | nil => rfl
  | cons c rest => simp [h c]

/-- A text without characters of the kind is what is left of it between such characters. -/
theorem stripEnds_eq {front back : List Char} (ht : ∀ c ∈ t, p c = false)
    (hfront : ∀ c ∈ front, p c = true) (hback : ∀ c ∈ back, p c = true) :
    stripEnds p (front ++ t ++ back) = t := by
  have hstart : (front ++ t ++ back).dropWhile p = (t ++ back).dropWhile p := by
    rw [List.append_assoc, List.dropWhile_append_of_pos hfront]
  rw [stripEnds, hstart]
  cases t with
  | nil =>
      have hnone : back.dropWhile p = [] := List.dropWhile_eq_nil_iff.2 hback
      rw [List.nil_append, hnone, List.rdropWhile_nil]
  | cons c rest =>
      have hfirst : (c :: rest ++ back).dropWhile p = c :: rest ++ back := by
        simp [ht c]
      rw [hfirst, List.rdropWhile, List.reverse_append, List.dropWhile_append_of_pos (by simpa),
        dropWhile_eq_self fun x hx => ht x (List.mem_reverse.1 hx), List.reverse_reverse]

end Stripping

/-! ## Signs and digits -/

namespace Signed

variable {P : List Char → Prop} {t : List Char}

/-- If no text of a kind starts with a sign, then the sign of a signed one can be split off. -/
theorem iff_splitSign (hP : ∀ {c rest}, P (c :: rest) → c ≠ '+' ∧ c ≠ '-') :
    Signed P t ↔ P (NumericLiteral.splitSign t).2 := by
  constructor
  · intro h
    cases h with
    | plus h => exact h
    | minus h => exact h
    | unsigned h =>
        cases t with
        | nil => exact h
        | cons c rest =>
            obtain ⟨hplus, hminus⟩ := hP h
            unfold NumericLiteral.splitSign
            split
            · next heq => exact absurd (List.cons.inj heq).1 hminus
            · next heq => exact absurd (List.cons.inj heq).1 hplus
            · exact h
  · intro h
    unfold NumericLiteral.splitSign at h
    split at h
    · exact .minus h
    · exact .plus h
    · exact .unsigned h

/-- Signed texts are as alike as the texts behind the signs. -/
theorem mem {Q : Char → Prop} (h : Signed P t) (hsign : Q '+' ∧ Q '-')
    (hP : ∀ {t}, P t → ∀ c ∈ t, Q c) : ∀ c ∈ t, Q c := by
  cases h with
  | unsigned h => exact hP h
  | plus h => exact List.forall_mem_cons.2 ⟨hsign.1, hP h⟩
  | minus h => exact List.forall_mem_cons.2 ⟨hsign.2, hP h⟩

end Signed

theorem isDecimalDigit_iff (c : Char) : isDecimalDigit c = true ↔ IsDecimalDigit c := by
  simp [isDecimalDigit, IsDecimalDigit]

theorem isNumeral_decimal_iff (t : List Char) :
    IsNumeral IsDecimalDigit t ↔ t ≠ [] ∧ t.all isDecimalDigit = true := by
  simp only [List.all_eq_true, isDecimalDigit_iff]
  exact ⟨fun h => ⟨h.ne_nil, h.digits⟩, fun h => ⟨h.1, h.2⟩⟩

instance (c : Char) : Decidable (IsDecimalDigit c) :=
  inferInstanceAs (Decidable (_ ∧ _))

theorem IsDecimalDigit.ne {c d : Char} (h : IsDecimalDigit c) (hd : ¬IsDecimalDigit d) : c ≠ d :=
  fun heq => hd (heq ▸ h)

theorem IsDecimalDigit.ne_sign {c : Char} (h : IsDecimalDigit c) : c ≠ '+' ∧ c ≠ '-' :=
  ⟨h.ne (by decide), h.ne (by decide)⟩

theorem RadixMark.mark_eq {mark : Char} {digit : Char → Prop} (h : RadixMark mark digit) :
    (mark = 'x' ∨ mark = 'X') ∨ (mark = 'o' ∨ mark = 'O') ∨ mark = 'b' ∨ mark = 'B' := by
  cases h with
  | hexadecimal h => exact .inl h
  | octal h => exact .inr (.inl h)
  | binary h => exact .inr (.inr h)

namespace NumericLiteral

theorem isExponentMark_iff (c : Char) : isExponentMark c = true ↔ c = 'e' ∨ c = 'E' := by
  simp [isExponentMark]

/-! ## Decimal literals -/

section Stopping

variable {p : Char → Bool} {front rest : List Char} {c : Char}

/-- A text up to the first character that is not of a kind. -/
theorem takeWhile_append_cons (hfront : ∀ x ∈ front, p x = true) (hc : p c = false) :
    (front ++ c :: rest).takeWhile p = front := by
  rw [List.takeWhile_append_of_pos hfront]
  simp [hc]

/-- A text from the first character on that is not of a kind. -/
theorem dropWhile_append_cons (hfront : ∀ x ∈ front, p x = true) (hc : p c = false) :
    (front ++ c :: rest).dropWhile p = c :: rest := by
  rw [List.dropWhile_append_of_pos hfront]
  simp [hc]

end Stopping

variable {t : List Char}

theorem exponent?_isSome_iff (t : List Char) :
    (exponent? t).isSome = true ↔ Signed (IsNumeral IsDecimalDigit) t := by
  have hsign {c : Char} {rest : List Char} (h : IsNumeral IsDecimalDigit (c :: rest)) :=
    (h.digits c List.mem_cons_self).ne_sign
  rw [Signed.iff_splitSign hsign, isNumeral_decimal_iff, exponent?]
  dsimp only
  split
  · next h => simpa using h
  · next h => simpa using h

theorem mantissa?_isSome_iff (t : List Char) : (mantissa? t).isSome = true ↔ IsMantissa t := by
  constructor
  · intro h
    have happend := List.takeWhile_append_dropWhile (p := isDecimalDigit) (l := t)
    unfold mantissa? at h
    dsimp only at h
    split at h
    · next hrest =>
      rw [hrest, List.append_nil] at happend
      split at h
      · cases h
      · next hne =>
        refine .whole ((isNumeral_decimal_iff t).2 ⟨happend ▸ hne, ?_⟩)
        exact List.all_eq_true.2 (List.dropWhile_eq_nil_iff.1 hrest)
    · next c fraction hrest =>
      split at h
      · next hpoint =>
        obtain ⟨rfl, hfraction, hne⟩ := hpoint
        rw [hrest] at happend
        rw [← happend]
        refine .point ((isNumeral_decimal_iff _).2 ⟨hne, ?_⟩)
        rw [List.all_append, hfraction, Bool.and_true]
        exact List.all_eq_true.2 fun c hc => List.mem_takeWhile_imp hc
      · cases h
  · intro h
    unfold mantissa?
    cases h with
    | whole h =>
        obtain ⟨hne, hdigits⟩ := (isNumeral_decimal_iff t).1 h
        rw [List.all_eq_true] at hdigits
        have hrest : t.dropWhile isDecimalDigit = [] := List.dropWhile_eq_nil_iff.2 hdigits
        have hwhole : t.takeWhile isDecimalDigit = t := List.takeWhile_eq_self_iff.2 hdigits
        simp [hrest, hwhole, hne]
    | @point whole fraction h =>
        obtain ⟨hne, hdigits⟩ := (isNumeral_decimal_iff _).1 h
        rw [List.all_append, Bool.and_eq_true] at hdigits
        have hpoint : isDecimalDigit '.' = false := by decide
        have hwhole := List.all_eq_true.1 hdigits.1
        rw [takeWhile_append_cons hwhole hpoint, dropWhile_append_cons hwhole hpoint]
        simp only [hdigits.2, true_and]
        rw [if_pos hne]
        rfl

/-- A mantissa has no mark of an exponent, and starts with none of the signs. -/
theorem mem_mantissa (h : IsMantissa t) : ∀ c ∈ t, IsDecimalDigit c ∨ c = '.' := by
  cases h with
  | whole h => exact fun c hc => .inl (h.digits c hc)
  | @point whole fraction h =>
      have hdigits := h.digits
      intro c hc
      rw [List.mem_append, List.mem_cons] at hc
      rcases hc with hc | rfl | hc
      · exact .inl (hdigits c (List.mem_append_left _ hc))
      · exact .inr rfl
      · exact .inl (hdigits c (List.mem_append_right _ hc))

theorem notMark_of_mantissa (h : IsMantissa t) : ∀ c ∈ t, (!isExponentMark c) = true := by
  intro c hc
  rw [Bool.not_eq_true', ← Bool.not_eq_true, isExponentMark_iff]
  rcases mem_mantissa h c hc with hdigit | rfl
  · exact fun hmark => hmark.elim (hdigit.ne (by decide)) (hdigit.ne (by decide))
  · decide

theorem ne_sign_of_mantissa {c : Char} {rest : List Char} (h : IsMantissa (c :: rest)) :
    c ≠ '+' ∧ c ≠ '-' := by
  rcases mem_mantissa h c List.mem_cons_self with hdigit | rfl
  · exact hdigit.ne_sign
  · decide

theorem ne_nil_of_mantissa (h : IsMantissa t) : t ≠ [] := by
  cases h with
  | whole h => exact h.ne_nil
  | point h => simp

theorem ne_sign_of_unsigned {c : Char} {rest : List Char} (h : IsUnsignedDecimal (c :: rest)) :
    c ≠ '+' ∧ c ≠ '-' := by
  generalize htext : c :: rest = text at h
  cases h with
  | plain h =>
      subst htext
      exact ne_sign_of_mantissa h
  | @scaled t exponent mark h hmark hexponent =>
      cases t with
      | nil => exact absurd rfl (ne_nil_of_mantissa h)
      | cons d digits =>
          obtain ⟨rfl, -⟩ := List.cons.inj htext
          exact ne_sign_of_mantissa h

/-- An unsigned decimal is a mantissa up to the first mark of an exponent, and an exponent behind
it. -/
theorem isUnsignedDecimal_iff (t : List Char) :
    IsUnsignedDecimal t ↔
      IsMantissa (t.takeWhile (!isExponentMark ·)) ∧
        ∀ mark exponent, t.dropWhile (!isExponentMark ·) = mark :: exponent →
          Signed (IsNumeral IsDecimalDigit) exponent := by
  constructor
  · intro h
    cases h with
    | plain h =>
        have hall := notMark_of_mantissa h
        rw [List.takeWhile_eq_self_iff.2 hall, List.dropWhile_eq_nil_iff.2 hall]
        exact ⟨h, nofun⟩
    | scaled h hmark hexponent =>
        have hall := notMark_of_mantissa h
        have hstop := (isExponentMark_iff _).2 hmark
        rw [takeWhile_append_cons hall (by simp [hstop]),
          dropWhile_append_cons hall (by simp [hstop])]
        refine ⟨h, ?_⟩
        rintro _ _ ⟨⟩
        exact hexponent
  · rintro ⟨hmantissa, hexponent⟩
    have happend := List.takeWhile_append_dropWhile (p := (!isExponentMark ·)) (l := t)
    cases hrest : t.dropWhile (!isExponentMark ·) with
    | nil =>
        rw [hrest, List.append_nil] at happend
        rw [happend] at hmantissa
        exact .plain hmantissa
    | cons mark exponent =>
        have hstop : isExponentMark mark = true := by
          have hne : t.dropWhile (!isExponentMark ·) ≠ [] := by simp [hrest]
          have hhead := List.head_dropWhile_not (!isExponentMark ·) hne
          simpa [hrest] using hhead
        rw [hrest] at happend
        rw [← happend]
        exact .scaled hmantissa ((isExponentMark_iff mark).1 hstop) (hexponent _ _ hrest)

/-- **The recogniser of decimal literals accepts those of the grammar.** -/
theorem decimal?_isSome_iff (t : List Char) :
    (decimal? t).isSome = true ↔ Signed IsUnsignedDecimal t := by
  rw [Signed.iff_splitSign ne_sign_of_unsigned, isUnsignedDecimal_iff, ← mantissa?_isSome_iff,
    decimal?]
  generalize splitSign t = split
  obtain ⟨negative, unsigned⟩ := split
  dsimp only
  cases mantissa? (unsigned.takeWhile (!isExponentMark ·)) with
  | none => simp
  | some mantissa =>
      cases hrest : unsigned.dropWhile (!isExponentMark ·) with
      | nil => simp
      | cons mark exponentText =>
          have hiff := exponent?_isSome_iff exponentText
          cases hexponent : exponent? exponentText with
          | none => simp_all
          | some exponent => simp_all

/-! ## Radix literals -/

theorem char_le_iff (c d : Char) : c ≤ d ↔ c.toNat ≤ d.toNat :=
  Iff.rfl

/-- The digits of a base, by their codes. -/
theorem isDigitIn_iff (base : Nat) (c : Char) :
    isDigitIn base c = true ↔
      48 ≤ c.toNat ∧ c.toNat ≤ 57 ∧ c.toNat < 48 + base ∨
        97 ≤ c.toNat ∧ c.toNat ≤ 102 ∧ c.toNat < 87 + base ∨
        65 ≤ c.toNat ∧ c.toNat ≤ 70 ∧ c.toNat < 55 + base := by
  simp only [isDigitIn, isDecimalDigit, digitValue, char_le_iff, Char.reduceToNat,
    Bool.and_eq_true, Bool.or_eq_true, decide_eq_true_eq]
  split
  · omega
  · split <;> omega

theorem isDigitIn_hexadecimal (c : Char) : isDigitIn 16 c = true ↔ IsHexDigit c := by
  rw [isDigitIn_iff]
  simp only [IsHexDigit, IsDecimalDigit, char_le_iff, Char.reduceToNat]
  omega

theorem isDigitIn_octal (c : Char) : isDigitIn 8 c = true ↔ '0' ≤ c ∧ c ≤ '7' := by
  rw [isDigitIn_iff]
  simp only [char_le_iff, Char.reduceToNat]
  omega

theorem isDigitIn_binary (c : Char) : isDigitIn 2 c = true ↔ c = '0' ∨ c = '1' := by
  rw [isDigitIn_iff]
  simp only [← Char.toNat_inj, Char.reduceToNat]
  omega

/-- The marks of a base are those whose digits the grammar knows. -/
theorem exists_digit_of_radixBase? {mark : Char} {base : Nat} (h : radixBase? mark = some base) :
    (0 < base ∧ base ≤ 16) ∧
      ∃ digit, RadixMark mark digit ∧ ∀ c, isDigitIn base c = true ↔ digit c := by
  unfold radixBase? at h
  split at h
  · next hmark =>
    cases h
    exact ⟨by decide, _, .hexadecimal hmark, isDigitIn_hexadecimal⟩
  · split at h
    · next hmark =>
      cases h
      exact ⟨by decide, _, .octal hmark, isDigitIn_octal⟩
    · split at h
      · next hmark =>
        cases h
        exact ⟨by decide, _, .binary hmark, isDigitIn_binary⟩
      · cases h

theorem exists_radixBase? {mark : Char} {digit : Char → Prop} (h : RadixMark mark digit) :
    ∃ base, radixBase? mark = some base ∧ ∀ c, isDigitIn base c = true ↔ digit c := by
  cases h with
  | hexadecimal h =>
      refine ⟨16, ?_, isDigitIn_hexadecimal⟩
      rcases h with rfl | rfl <;> rfl
  | octal h =>
      refine ⟨8, ?_, isDigitIn_octal⟩
      rcases h with rfl | rfl <;> rfl
  | binary h =>
      refine ⟨2, ?_, isDigitIn_binary⟩
      rcases h with rfl | rfl <;> rfl

theorem radixDigits?_isSome_iff {base : Nat} {digit : Char → Prop}
    (h : ∀ c, isDigitIn base c = true ↔ digit c) (t : List Char) :
    (radixDigits? base t).isSome = true ↔ ∀ c ∈ t, digit c := by
  simp only [← h, ← List.all_eq_true, radixDigits?]
  split <;> simp_all

/-! ## All literals -/

/-- A text that starts with a zero and the mark of a base is no decimal. -/
theorem decimal?_of_radixBase? {mark : Char} {base : Nat} (h : radixBase? mark = some base)
    (t : List Char) : decimal? ('0' :: mark :: t) = none := by
  obtain ⟨-, digit, hdigit, -⟩ := exists_digit_of_radixBase? h
  have hmark : isExponentMark mark = false ∧ ¬(IsDecimalDigit mark ∨ mark = '.') := by
    rcases hdigit.mark_eq with (rfl | rfl) | (rfl | rfl) | rfl | rfl <;> decide
  have hzero : isExponentMark '0' = false := by decide
  rw [← Option.not_isSome_iff_eq_none, decimal?_isSome_iff,
    Signed.iff_splitSign ne_sign_of_unsigned, splitSign, isUnsignedDecimal_iff]
  · rintro ⟨hmantissa, -⟩
    rw [List.takeWhile_cons, List.takeWhile_cons, hzero, hmark.1] at hmantissa
    exact hmark.2 (mem_mantissa hmantissa mark (by simp))
  · simp
  · simp

theorem signed_infinity_iff (t : List Char) :
    Signed (· = "Infinity".toList) t ↔
      (t = "Infinity".toList ∨ t = "+Infinity".toList) ∨ t = "-Infinity".toList := by
  constructor
  · intro h
    cases h with
    | unsigned h => exact .inl (.inl h)
    | plus h => exact .inl (.inr (congrArg ('+' :: ·) h))
    | minus h => exact .inr (congrArg ('-' :: ·) h)
  · rintro ((rfl | rfl) | rfl)
    · exact .unsigned rfl
    · exact .plus rfl
    · exact .minus rfl

theorem not_signed_infinity (t : List Char) : ¬Signed (· = "Infinity".toList) ('0' :: t) := by
  intro h
  cases h with
  | unsigned h =>
      have hhead : some '0' = "Infinity".toList.head? := congrArg List.head? h
      exact absurd hhead (by decide)

/-- A text that starts with a zero and the mark of a base is read in that base. -/
theorem parseTrimmed_of_radixBase? {mark : Char} {base : Nat} (h : radixBase? mark = some base)
    {t : List Char} (ht : t ≠ []) : parseTrimmed ('0' :: mark :: t) = radixDigits? base t := by
  obtain ⟨digit, digits, rfl⟩ := List.exists_cons_of_ne_nil ht
  have hinfinity := not_signed_infinity (mark :: digit :: digits)
  rw [signed_infinity_iff, not_or] at hinfinity
  unfold parseTrimmed
  split
  · next hempty => cases hempty
  split
  · next hsigned => exact absurd hsigned hinfinity.1
  split
  · next hsigned => exact absurd hsigned hinfinity.2
  simp only [h]

/-- **The recogniser of literals accepts the texts of the grammar.** -/
theorem parseTrimmed_isSome_iff (t : List Char) :
    (parseTrimmed t).isSome = true ↔ NumericText t := by
  constructor
  · intro h
    unfold parseTrimmed at h
    split at h
    · next hempty => exact hempty ▸ .empty
    split at h
    · next hinfinity => exact .infinity ((signed_infinity_iff t).2 (.inl hinfinity))
    split at h
    · next hinfinity => exact .infinity ((signed_infinity_iff t).2 (.inr hinfinity))
    split at h
    · next mark digit digits =>
      split at h
      · next base hbase =>
        obtain ⟨-, kind, hmark, hkind⟩ := exists_digit_of_radixBase? hbase
        exact .radix hmark ⟨by simp, (radixDigits?_isSome_iff hkind _).1 h⟩
      · exact .decimal ((decimal?_isSome_iff _).1 h)
    · exact .decimal ((decimal?_isSome_iff t).1 h)
  · intro h
    cases h with
    | empty => rfl
    | infinity h =>
        rcases (signed_infinity_iff t).1 h with (rfl | rfl) | rfl <;> decide
    | decimal h =>
        have hdecimal := (decimal?_isSome_iff t).2 h
        unfold parseTrimmed
        split
        · rfl
        split
        · rfl
        split
        · rfl
        split
        · next mark digit digits =>
          split
          · next base hbase =>
            rw [decimal?_of_radixBase? hbase] at hdecimal
            cases hdecimal
          · exact hdecimal
        · exact hdecimal
    | @radix mark kind t hmark h =>
        obtain ⟨base, hbase, hkind⟩ := exists_radixBase? hmark
        rw [parseTrimmed_of_radixBase? hbase h.ne_nil, radixDigits?_isSome_iff hkind]
        exact h.digits

end NumericLiteral

/-! ## Values -/

namespace Double

/-- A double that is a number and has no minus sign. -/
def IsPlain (x : Double) : Prop := x.isNaN = false ∧ x.isNegative = false

theorem isNaN_ofRatio (negative : Bool) (num den : Nat) :
    (ofRatio negative num den).isNaN = false := by
  unfold ofRatio
  split <;> rfl

theorem isPlain_ofRatio (num den : Nat) : (ofRatio false num den).IsPlain := by
  unfold ofRatio
  split <;> exact ⟨rfl, rfl⟩

theorem IsPlain.add {x y : Double} (hx : x.IsPlain) (hy : y.IsPlain) : (x.add y).IsPlain := by
  obtain ⟨hx, hpositive⟩ := hx
  obtain ⟨hy, hpositive'⟩ := hy
  cases x with
  | nan => cases hx
  | infinity m =>
      cases hpositive
      cases y with
      | nan => cases hy
      | infinity n =>
          cases hpositive'
          exact ⟨rfl, rfl⟩
      | finite => exact ⟨rfl, rfl⟩
  | finite m a =>
      cases hpositive
      cases y with
      | nan => cases hy
      | infinity n =>
          cases hpositive'
          exact ⟨rfl, rfl⟩
      | finite n b =>
          cases hpositive'
          show (ofSigned false ((a.val : Int) + b.val)).IsPlain
          have hsign : (if (a.val : Int) + b.val = 0 then false
              else decide ((a.val : Int) + b.val < 0)) = false := by
            split
            · rfl
            · exact decide_eq_false (by omega)
          rw [ofSigned, hsign]
          exact isPlain_ofRatio _ 1

/-- A product with a small positive integer is a number. -/
theorem IsPlain.mul_ofNat {x : Double} (hx : x.IsPlain) {n : Nat} (hpos : 0 < n)
    (hn : n ≤ Number.integerBound) : (x.mul (ofNat n)).IsPlain := by
  obtain ⟨hx, hpositive⟩ := hx
  rw [ofNat_eq hn]
  cases x with
  | nan => cases hx
  | infinity m =>
      cases hpositive
      show (if n * one = 0 then nan else infinity (false != false)).IsPlain
      rw [if_neg (Nat.ne_of_gt (Nat.mul_pos hpos one_pos))]
      exact ⟨rfl, rfl⟩
  | finite m a =>
      cases hpositive
      exact isPlain_ofRatio _ one

/-- Digits in a base have a number, however many there are. -/
theorem isPlain_ofRadixDigits {base : Nat} (hpos : 0 < base) (hbase : base ≤ Number.integerBound)
    (digits : List Nat) : (ofRadixDigits base digits).IsPlain := by
  suffices h : ∀ x : Double, x.IsPlain →
      (digits.foldl (fun x digit => add (mul x (ofNat base)) (ofNat digit)) x).IsPlain from
    h zero ⟨rfl, rfl⟩
  induction digits with
  | nil => exact fun x hx => hx
  | cons digit digits ih =>
      exact fun x hx => ih _ ((hx.mul_ofNat hpos hbase).add (isPlain_ofRatio _ 1))

theorem isNaN_ofDecimal (negative : Bool) (d : Decimal) : (ofDecimal negative d).isNaN = false := by
  unfold ofDecimal
  dsimp only
  split
  · exact isNaN_ofRatio ..
  · split
    · rfl
    · exact isNaN_ofRatio ..

end Double

namespace NumericLiteral

theorem isNaN_of_decimal? {t : List Char} {l : NumericLiteral} (h : decimal? t = some l) :
    l.value.isNaN = false := by
  rw [decimal?] at h
  generalize splitSign t = split at h
  obtain ⟨negative, unsigned⟩ := split
  obtain ⟨mantissa, -, h⟩ := Option.bind_eq_some_iff.1 h
  split at h
  · cases h
    exact Double.isNaN_ofDecimal ..
  · obtain ⟨exponent, -, h⟩ := Option.bind_eq_some_iff.1 h
    cases h
    exact Double.isNaN_ofDecimal ..

/-- Every literal that is recognised has a number. -/
theorem isNaN_value {t : List Char} {l : NumericLiteral} (h : parseTrimmed t = some l) :
    l.value.isNaN = false := by
  unfold parseTrimmed at h
  split at h
  · cases h
    rfl
  split at h
  · cases h
    rfl
  split at h
  · cases h
    rfl
  split at h
  · next mark digit digits =>
    split at h
    · next base hbase =>
      obtain ⟨⟨hpos, hle⟩, -⟩ := exists_digit_of_radixBase? hbase
      unfold radixDigits? at h
      split at h
      · cases h
        exact (Double.isPlain_ofRadixDigits hpos (Nat.le_trans hle (by decide)) _).1
      · cases h
    · exact isNaN_of_decimal? h
  · exact isNaN_of_decimal? h

end NumericLiteral

/-! ## Texts -/

/-- What is trimmed is what the language strips, and one character more. -/
theorem isBlank_iff (c : Char) : isBlank c = true ↔ isStrippable c = true ∨ c = '\u0085' := by
  simp only [isBlank, isStrippable, isWhiteSpace, isLineTerminator, isSpaceSeparator,
    ← Char.toNat_inj, Bool.or_eq_true, Bool.and_eq_true, beq_iff_eq, decide_eq_true_eq,
    Char.reduceToNat]
  omega

/-- Numeric texts are made of visible characters. -/
def IsVisible (c : Char) : Prop := 33 ≤ c.toNat ∧ c.toNat ≤ 126

instance (c : Char) : Decidable (IsVisible c) :=
  inferInstanceAs (Decidable (_ ∧ _))

theorem IsDecimalDigit.isVisible {c : Char} (h : IsDecimalDigit c) : IsVisible c := by
  have hrange : 48 ≤ c.toNat ∧ c.toNat ≤ 57 := h
  unfold IsVisible
  omega

theorem RadixMark.isVisible {mark : Char} {digit : Char → Prop} (h : RadixMark mark digit) :
    IsVisible mark ∧ ∀ c, digit c → IsVisible c := by
  obtain ⟨base, -, hdigit⟩ := NumericLiteral.exists_radixBase? h
  constructor
  · rcases h.mark_eq with (rfl | rfl) | (rfl | rfl) | rfl | rfl <;> decide
  · intro c hc
    have hcodes := (NumericLiteral.isDigitIn_iff base c).1 ((hdigit c).2 hc)
    unfold IsVisible
    omega

theorem IsMantissa.isVisible {t : List Char} (h : IsMantissa t) : ∀ c ∈ t, IsVisible c := by
  intro c hc
  rcases NumericLiteral.mem_mantissa h c hc with hdigit | rfl
  · exact hdigit.isVisible
  · decide

theorem IsUnsignedDecimal.isVisible {t : List Char} (h : IsUnsignedDecimal t) :
    ∀ c ∈ t, IsVisible c := by
  cases h with
  | plain h => exact h.isVisible
  | scaled h hmark hexponent =>
      refine List.forall_mem_append.2 ⟨h.isVisible, List.forall_mem_cons.2 ⟨?_, ?_⟩⟩
      · rcases hmark with rfl | rfl <;> decide
      · exact hexponent.mem (by decide) fun hdigits c hc => (hdigits.digits c hc).isVisible

theorem NumericText.isVisible {t : List Char} (h : NumericText t) : ∀ c ∈ t, IsVisible c := by
  cases h with
  | empty => exact nofun
  | infinity h =>
      have hall : "Infinity".toList.all (fun c => decide (IsVisible c)) = true := by decide
      refine h.mem (by decide) ?_
      rintro _ rfl c hc
      exact of_decide_eq_true (List.all_eq_true.1 hall c hc)
  | decimal h => exact h.mem (by decide) IsUnsignedDecimal.isVisible
  | radix hmark h =>
      obtain ⟨hvisible, hdigits⟩ := hmark.isVisible
      refine List.forall_mem_cons.2 ⟨by decide, List.forall_mem_cons.2 ⟨hvisible, ?_⟩⟩
      exact fun c hc => hdigits c (h.digits c hc)

theorem isBlank_of_isVisible {c : Char} (h : IsVisible c) : isBlank c = false := by
  unfold IsVisible at h
  rw [← Bool.not_eq_true]
  simp only [isBlank, Bool.or_eq_true, Bool.and_eq_true, beq_iff_eq, decide_eq_true_eq]
  omega

theorem isStrippable_of_isVisible {c : Char} (h : IsVisible c) : isStrippable c = false := by
  rw [← Bool.not_eq_true]
  intro hstrippable
  have hblank := (isBlank_iff c).2 (.inl hstrippable)
  rw [isBlank_of_isVisible h] at hblank
  cases hblank

/-- What is left of a text is numeric for every notion of blanks that it has between the two. -/
theorem NumericText.stripEnds_eq_stripEnds {p q : Char → Bool} {text : List Char}
    (h : NumericText (stripEnds p text)) (hpq : ∀ c ∈ text, p c = true → q c = true)
    (hq : ∀ {c}, IsVisible c → q c = false) : stripEnds q text = stripEnds p text := by
  obtain ⟨front, back, htext, hfront, hback⟩ := exists_stripEnds p text
  have hmem {c : Char} (hc : c ∈ front ∨ c ∈ back) : c ∈ text := by
    rw [htext, List.mem_append, List.mem_append]
    exact hc.elim (fun hc => .inl (.inl hc)) .inr
  have hstrip := stripEnds_eq (p := q) (fun c hc => hq (h.isVisible c hc))
    (fun c hc => hpq c (hmem (.inl hc)) (hfront c hc))
    (fun c hc => hpq c (hmem (.inr hc)) (hback c hc))
  rwa [← htext] at hstrip

namespace Double

/-- A text denotes a number exactly if the grammar knows what is left between its blanks. -/
theorem isNaN_ofText_iff (s : String) :
    (ofText s).isNaN = false ↔ NumericText (stripEnds isBlank s.toList) := by
  rw [← NumericLiteral.parseTrimmed_isSome_iff]
  unfold ofText NumericLiteral.parse
  rw [show trimBlank s.toList = stripEnds isBlank s.toList from rfl]
  cases h : NumericLiteral.parseTrimmed (stripEnds isBlank s.toList) with
  | none => simp [isNaN]
  | some l => simp [NumericLiteral.isNaN_value h]

/-- **Which texts denote numbers.** A text denotes a number exactly if the grammar knows what is
left of it once its ends are stripped. What is stripped is what the language strips, and U+0085. So
a text is read as the language says exactly if it does not contain this character or does not
denote a number. -/
theorem ofText_spec (s : String) :
    ((ofText s).isNaN = false ↔ NumericText (stripEnds isBlank s.toList)) ∧
      (∀ c, isBlank c = true ↔ isStrippable c = true ∨ c = '\u0085') ∧
      (((ofText s).isNaN = false ↔ NumericText (stripEnds isStrippable s.toList)) ↔
        '\u0085' ∉ s.toList ∨ (ofText s).isNaN = true) := by
  refine ⟨isNaN_ofText_iff s, isBlank_iff, ?_⟩
  constructor
  · intro hiff
    rw [or_iff_not_imp_right, Bool.not_eq_true]
    intro hnumber hmem
    -- what the language reads is visible, and what it strips is not U+0085
    obtain ⟨front, back, htext, hfront, hback⟩ := exists_stripEnds isStrippable s.toList
    have hvisible := (hiff.1 hnumber).isVisible
    rw [htext, List.mem_append, List.mem_append] at hmem
    rcases hmem with (hmem | hmem) | hmem
    · exact absurd (hfront _ hmem) (by decide)
    · exact absurd (hvisible _ hmem) (by decide)
    · exact absurd (hback _ hmem) (by decide)
  · intro hread
    constructor
    · intro hnumber
      have habsent : '\u0085' ∉ s.toList := hread.resolve_right (by simp [hnumber])
      have hnumeric := (isNaN_ofText_iff s).1 hnumber
      rwa [hnumeric.stripEnds_eq_stripEnds _ isStrippable_of_isVisible]
      intro c hc hblank
      exact ((isBlank_iff c).1 hblank).resolve_right fun heq => habsent (heq ▸ hc)
    · intro hnumeric
      rw [isNaN_ofText_iff, hnumeric.stripEnds_eq_stripEnds _ isBlank_of_isVisible]
      · exact hnumeric
      · exact fun c _ hstrippable => (isBlank_iff c).2 (.inl hstrippable)

/-- A one behind U+0085 is read as a one, although the language does not strip that character. -/
theorem ofText_of_next_line :
    ofText "\u00851" = ofNat 1 ∧
      ¬NumericText (stripEnds isStrippable "\u00851".toList) := by
  refine ⟨by decide +kernel, fun h => ?_⟩
  exact absurd (h.isVisible '\u0085' (by decide)) (by decide)

end Double

end EcmaCore
