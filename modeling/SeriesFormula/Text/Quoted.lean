import SeriesFormula.Text.Shown

/-!
# Quoted texts

The form in which messages quote a text: between double quotes, with a backslash before quotes and backslashes, short
names for five control characters, and `\u` and the number in braces for all other characters that cannot be seen.
-/

namespace SeriesFormula.Text

/-- The digits of a number to the base 16, small letters, no leading zero. -/
def hexDigits (n : Nat) : List Char := Nat.toDigits 16 n

def quoteChar (c : Char) : List Char :=
  match c with
  | '\x00' => ['\\', '0']
  | '\t' => ['\\', 't']
  | '\r' => ['\\', 'r']
  | '\n' => ['\\', 'n']
  | '"' => ['\\', '"']
  | '\\' => ['\\', '\\']
  | c => if isShownByNumber c then ['\\', 'u', '{'] ++ hexDigits c.toNat ++ ['}'] else [c]

def quoted (s : String) : String := String.ofList ('"' :: s.toList.flatMap quoteChar ++ ['"'])

end SeriesFormula.Text
