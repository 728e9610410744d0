/-!
# White space

The characters that are stripped from both ends of a text before it is read as
a number: those with the Unicode property `White_Space`, and the byte order
mark.
-/

namespace EcmaCore

/-- Whether a character is white space in the sense above. -/
def isBlank (c : Char) : Bool :=
  let code := c.toNat
  (0x0009 ≤ code && code ≤ 0x000d) || code == 0x0020 || code == 0x0085 || code == 0x00a0
    || code == 0x1680 || (0x2000 ≤ code && code ≤ 0x200a) || code == 0x2028 || code == 0x2029
    || code == 0x202f || code == 0x205f || code == 0x3000 || code == 0xfeff

/-- A text without the white space at its ends. -/
def trimBlank (text : List Char) : List Char :=
  ((text.dropWhile isBlank).reverse.dropWhile isBlank).reverse

theorem trimBlank_of_no_blank {text : List Char} (h : ∀ c ∈ text, isBlank c = false) :
    trimBlank text = text := by
  have drop (l : List Char) (hl : ∀ c ∈ l, isBlank c = false) : l.dropWhile isBlank = l := by
    cases l with
    | nil => rfl
    | cons c rest => simp [hl c (by simp)]
  unfold trimBlank
  rw [drop text h, drop text.reverse (by simpa using h), List.reverse_reverse]

end EcmaCore
