import ManagedCode.Size

/-!
# Reference bits

    A bit per register or per stack word, set where a reference is held, packed into 64 bit words
    with the lowest index in the lowest bit.

* **`RefBits.testBit`** is the view: whether an index is set, false beyond the words.
* **`RefBits.set`** and **`RefBits.isSet`** refuse an index beyond the words.
-/

namespace ManagedCode

/-- A vector of bits, 64 to a word. -/
structure RefBits where
  words : List UInt64
deriving DecidableEq, Repr, Inhabited

namespace RefBits

/-- Bits per word. -/
def wordBits : Nat := 64

/-- The vector of at least `bits` bits, all clear. -/
def clear (bits : Nat) : Checked RefBits := do
  let rounded ← Size.add bits wordBits
  return ⟨List.replicate ((rounded - 1) / wordBits) 0⟩

/-- How many bits there are. -/
def size (b : RefBits) : Nat := b.words.length * wordBits

/-- Whether bit `i` is set. -/
def testBit (b : RefBits) (i : Nat) : Bool :=
  match b.words[i / wordBits]? with
  | some word => word.toNat.testBit (i % wordBits)
  | none => false

/-- Whether bit `i` is set, for an index within the vector. -/
def isSet (b : RefBits) (i : Nat) : Checked Bool := do
  require (i / wordBits < b.words.length) .bitOutside
  return b.testBit i

/-- Sets bit `i`, for an index within the vector. -/
def set (b : RefBits) (i : Nat) : Checked RefBits := do
  require (i / wordBits < b.words.length) .bitOutside
  return ⟨b.words.modify (i / wordBits) fun word =>
    word ||| UInt64.ofNat (1 <<< (i % wordBits))⟩

/-- The vector of at least `bits` bits with the given ones set. -/
def ofSetBits (bits : Nat) (indices : List Nat) : Checked RefBits := do
  let b ← clear bits
  indices.foldlM set b

end RefBits

end ManagedCode
