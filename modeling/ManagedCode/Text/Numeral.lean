import ManagedCode.Word

/-!
# Numerals

    Unsigned numbers as people write them on a command line: an optional plus sign, then digits.
-/

namespace ManagedCode.Text

/-- The value of a digit, up to `f`. -/
def digit? (c : Char) : Option Nat :=
  if '0' ≤ c ∧ c ≤ '9' then some (c.toNat - '0'.toNat)
  else if 'a' ≤ c ∧ c ≤ 'f' then some (c.toNat - 'a'.toNat + 10)
  else if 'A' ≤ c ∧ c ≤ 'F' then some (c.toNat - 'A'.toNat + 10)
  else none

/-- The value of a digit below `radix`. -/
def digitBelow? (radix : Nat) (c : Char) : Option Nat := (digit? c).filter (· < radix)

/-- The value of a list of digits, most significant first. -/
def digits? (radix : Nat) (cs : List Char) : Option Nat :=
  cs.foldlM (fun n c => (digitBelow? radix c).map (n * radix + ·)) 0

/-- The number of a numeral that fits a 64 bit word. -/
def numeral? (radix : Nat) (cs : List Char) : Option Nat :=
  let body := match cs with
    | '+' :: rest => rest
    | cs => cs
  if body.isEmpty then none else (digits? radix body).filter (· < Word.limit)

end ManagedCode.Text
