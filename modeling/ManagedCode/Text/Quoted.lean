import ManagedCode.Text.Unprintable

/-!
# Quoted text

    Text between double quotes, as messages show it: quotes, backslashes and unprintable characters
    are escaped, every other character stands for itself.
-/

namespace ManagedCode.Text

/-- A character by its number: `\u`, and the hexadecimal digits between braces. -/
def byNumber (c : Char) : List Char :=
  ['\\', 'u', '\x7b'] ++ Nat.toDigits 16 c.toNat ++ ['\x7d']

/-- The form of a character between quotes. -/
def escape (c : Char) : List Char :=
  match c with
  | '"' => ['\\', '"']
  | '\\' => ['\\', '\\']
  | '\n' => ['\\', 'n']
  | '\r' => ['\\', 'r']
  | '\t' => ['\\', 't']
  | '\x00' => ['\\', '0']
  | c => if isUnprintable c then byNumber c else [c]

/-- Text between double quotes. -/
def quoted (text : String) : String :=
  String.ofList ('"' :: text.toList.flatMap escape ++ ['"'])

end ManagedCode.Text
