import EcmaCore.Text.Invisible

/-!
# Quoted text

The quoted form in which diagnostics show a text: quotes and backslashes are
escaped, the common controls have escapes of their own, and every other
character without a picture is written as its code point.
-/

namespace EcmaCore

/-- A code point as an escape, in lower-case hexadecimal. -/
def codePointEscape (c : Char) : List Char :=
  "\\u\x7b".toList ++ Nat.toDigits 16 c.toNat ++ ['\x7d']

/-- A character of a quoted text. -/
def quoteChar (c : Char) : List Char :=
  match c with
  | '\x00' => ['\\', '0']
  | '\t' => ['\\', 't']
  | '\n' => ['\\', 'n']
  | '\r' => ['\\', 'r']
  | '"' => ['\\', '"']
  | '\\' => ['\\', '\\']
  | c =>
      if c.toNat < 0x20 || (0x7e < c.toNat && isInvisible c) then codePointEscape c else [c]

/-- A text in quotes. -/
def quote (s : String) : String :=
  String.ofList ('"' :: (s.toList.flatMap quoteChar ++ ['"']))

end EcmaCore
