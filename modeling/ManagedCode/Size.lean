import ManagedCode.Fault

/-!
# Sizes and addresses

    Sizes and offsets are natural numbers, addresses are 64 bit words. Every sum and product is
    checked against the 64 bit range, and rounding up takes powers of two only.
-/

namespace ManagedCode

namespace Size

/-- A size, if it is within the range of words. -/
def check (n : Nat) : Checked Nat := if n < Word.limit then .ok n else .error .overflow

/-- The sum of two sizes. -/
def add (a b : Nat) : Checked Nat := check (a + b)

/-- The product of two sizes. -/
def mul (a b : Nat) : Checked Nat := check (a * b)

/-- Whether `n` is a power of two. -/
def isPowerOfTwo (n : Nat) : Bool := n == 1 <<< n.log2

/-- The least multiple of `alignment` that is not below `value`. The intermediate sum of the two
    has to stay within the range of words. -/
def alignUp (value alignment : Nat) : Checked Nat := do
  require (isPowerOfTwo alignment) .badAlignment
  let sum ← add value alignment
  return (sum - 1) / alignment * alignment

end Size

namespace Address

/-- The address `offset` bytes after `base`. -/
def advance (base : UInt64) (offset : Nat) : Checked UInt64 := do
  let sum ← Size.add base.toNat offset
  return UInt64.ofNat sum

/-- The address at a signed distance from `base`, wrapping around. -/
def displace (base : UInt64) (distance : Int) : UInt64 := base + Word.ofInt distance

/-- The signed distance from `next` to `target`, which has to fit 32 bits. -/
def distance (target next : UInt64) : Checked Int := do
  let d := Word.signed64 (target - next)
  require (d = Word.signed32 d) (.machine (.displacementTooFar d target))
  return d

end Address

end ManagedCode
