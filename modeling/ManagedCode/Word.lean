/-!
# Words and their written forms

    Machine words as integers: the two's complement readings of 32 and 64 bit words, the
    little-endian bytes of a word and back, and the hexadecimal text of addresses.

* **`signed32`**, **`signed64`**, **`ofInt`** — reinterpretation without loss modulo the width.
* **`toBytes`**, **`ofBytes`** — little-endian bytes, and the number they stand for.
* **`hex`** — lower-case digits behind `0x`, no padding.
-/

namespace ManagedCode.Word

/-- The number of 64 bit words. Sizes, offsets and addresses stay below it. -/
def limit : Nat := 0x10000000000000000

/-- The number of 32 bit words. -/
def limit32 : Nat := 0x100000000

/-- The low 32 bits of `n`, read as a two's complement number. -/
def signed32 (n : Int) : Int := n.bmod limit32

/-- A 64 bit word read as a two's complement number. -/
def signed64 (w : UInt64) : Int := (w.toNat : Int).bmod limit

/-- The 64 bit word congruent to `n`. -/
def ofInt (n : Int) : UInt64 := UInt64.ofNat (n % limit).toNat

/-- The `width` low bytes of `n`, least significant first. -/
def toBytes : (width n : Nat) → List UInt8
  | 0, _ => []
  | width + 1, n => UInt8.ofNat n :: toBytes width (n / 256)

/-- The number whose little-endian bytes are given. -/
def ofBytes : List UInt8 → Nat
  | [] => 0
  | b :: rest => b.toNat + 256 * ofBytes rest

/-- Hexadecimal text behind `0x`. -/
def hex (n : Nat) : String := "0x" ++ String.ofList (Nat.toDigits 16 n)

/-- Hexadecimal text of the 32 bit two's complement form of `n`. -/
def hex32 (n : Int) : String := hex (n % limit32).toNat

/-- Hexadecimal text of the 64 bit two's complement form of `n`. -/
def hex64 (n : Int) : String := hex (n % limit).toNat

@[simp] theorem length_toBytes (width n : Nat) : (toBytes width n).length = width := by
  induction width generalizing n with
  | zero => rfl
  | succ width ih => simp [toBytes, ih]

end ManagedCode.Word
