/-!
# Decimal numerals

The digits of a natural number, without leading zeros, and the value of a
string of digits.

## Main results

* `value_numeral`: reading a numeral gives the number back.
* `numeral_injective`: different numbers have different numerals.
-/

namespace EcmaCore

/-- The digit character of a number below ten. -/
def digitChar (n : Nat) : Char := Char.ofNat (48 + n % 10)

/-- The value of a digit character in bases up to sixteen; letters count from ten. -/
def digitValue (c : Char) : Nat :=
  if '0' ≤ c ∧ c ≤ '9' then c.toNat - 48
  else if 'a' ≤ c ∧ c ≤ 'f' then c.toNat - 87
  else c.toNat - 55

/-- Whether a character is a decimal digit. -/
def isDecimalDigit (c : Char) : Bool := '0' ≤ c && c ≤ '9'

/-- The decimal digits of a natural number, most significant first. -/
def numeral (n : Nat) : List Char :=
  if n < 10 then [digitChar n] else numeral (n / 10) ++ [digitChar n]

/-- The number that a string of decimal digits denotes. -/
def numeralValue (digits : List Char) : Nat :=
  digits.foldl (fun value c => 10 * value + digitValue c) 0

/-- The power of ten with `n` zeros. -/
def powerOfTen (n : Nat) : Nat := Nat.pow 10 n

/-- The decimal digits of a natural number as a string. -/
def decimalText (n : Nat) : String := String.ofList (numeral n)

theorem digitValue_digitChar (n : Nat) : digitValue (digitChar n) = n % 10 := by
  have h : ∀ k : Fin 10, digitValue (Char.ofNat (48 + k.val)) = k.val := by decide
  exact h ⟨n % 10, Nat.mod_lt _ (by decide)⟩

theorem isDecimalDigit_digitChar (n : Nat) : isDecimalDigit (digitChar n) = true := by
  have h : ∀ k : Fin 10, isDecimalDigit (Char.ofNat (48 + k.val)) = true := by decide
  exact h ⟨n % 10, Nat.mod_lt _ (by decide)⟩

/-- Reading a numeral gives the number back. -/
theorem value_numeral (n : Nat) : numeralValue (numeral n) = n := by
  induction n using Nat.strongRecOn with
  | ind n ih =>
      rw [numeral]
      split
      · simp [numeralValue, digitValue_digitChar]; omega
      · have ih := ih (n / 10) (by omega)
        rw [numeralValue] at ih
        rw [numeralValue, List.foldl_append, ih]
        simp only [List.foldl_cons, List.foldl_nil, digitValue_digitChar]
        omega

/-- Different numbers have different numerals. -/
theorem numeral_injective {m n : Nat} (h : numeral m = numeral n) : m = n := by
  rw [← value_numeral m, ← value_numeral n, h]

theorem isDecimalDigit_of_mem_numeral {n : Nat} {c : Char} (h : c ∈ numeral n) :
    isDecimalDigit c = true := by
  induction n using Nat.strongRecOn with
  | ind n ih =>
      rw [numeral] at h
      split at h
      · rw [List.mem_singleton.1 h]; exact isDecimalDigit_digitChar n
      · rcases List.mem_append.1 h with h | h
        · exact ih (n / 10) (by omega) h
        · rw [List.mem_singleton.1 h]; exact isDecimalDigit_digitChar n

theorem numeral_ne_nil (n : Nat) : numeral n ≠ [] := by
  rw [numeral]; split <;> simp

end EcmaCore
