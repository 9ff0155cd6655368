import TypeContracts.Text.Extending
import TypeContracts.Text.Unprintable

/-!
Quoted text: the form of a string inside a container, in a default value and in debugging output.
Quotes, backslashes and the common controls have short escapes. A character that cannot be printed,
or that would combine with the one before it, is written by its code point in hexadecimal.
-/

namespace TypeContracts

/-- The hexadecimal digits of a code point, lower case, without leading zeros. -/
def codePointDigits (c : Char) : List Char := Nat.toDigits 16 c.toNat

/-- One character inside quotes. -/
def escapeChar (c : Char) : List Char :=
  match c with
  | '"' => ['\\', '"']
  | '\\' => ['\\', '\\']
  | '\n' => ['\\', 'n']
  | '\r' => ['\\', 'r']
  | '\t' => ['\\', 't']
  | '\x00' => ['\\', '0']
  | c =>
      if 0x20 ≤ c.toNat ∧ c.toNat < 0x7f then [c]
      else if isExtending c || isUnprintable c then
        ['\\', 'u', '\x7b'] ++ codePointDigits c ++ ['\x7d']
      else [c]

/-- The text in quotes. -/
def quoted (s : String) : String :=
  String.ofList ('"' :: s.toList.flatMap escapeChar ++ ['"'])

end TypeContracts
