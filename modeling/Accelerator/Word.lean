/-!
# Machine words

Sizes, addresses, handles and ring indices are 64-bit words, and packets are made of words of 16,
32 and 64 bits. This module holds what the library needs of words beyond the arithmetic of the
fixed-width types: their little-endian bytes, sums that notice when they leave 64 bits, rounding
up to a multiple, and the hexadecimal text of a word.

## Main definitions

* `Word.bytes`, `Word.ofBytes`: little-endian bytes of a number, and back.
* `Word.add?`, `Word.addClamped`: sums of 64-bit words that fail, or stop at the largest word.
* `Word.alignUp`: the least multiple of an alignment that is not below a number.
* `Word.hex`: the text `0x…` of a number.
-/

namespace Accelerator

namespace Word

/-! ### Little-endian bytes -/

/-- The `count` lowest bytes of a number, least significant byte first. -/
def bytes : Nat → Nat → List UInt8
  | 0, _ => []
  | count + 1, n => UInt8.ofNat n :: bytes count (n / 256)

/-- The number that a list of bytes spells, least significant byte first. -/
def ofBytes : List UInt8 → Nat
  | [] => 0
  | b :: rest => b.toNat + 256 * ofBytes rest

@[simp] theorem length_bytes (count n : Nat) : (bytes count n).length = count := by
  induction count generalizing n with
  | zero => rfl
  | succ count ih => simp [bytes, ih]

/-! ### Sums and rounding -/

/-- The sum of two words, or nothing when it does not fit 64 bits. -/
def add? (a b : UInt64) : Option UInt64 :=
  if a.toNat + b.toNat < UInt64.size then some (a + b) else none

/-- The sum of two words, held at the largest word when it does not fit 64 bits. -/
def addClamped (a b : UInt64) : UInt64 :=
  (add? a b).getD (.ofNat (UInt64.size - 1))

/-- The least multiple of `alignment` that is not below `n`; there is none for alignment 0. -/
def alignUp (n alignment : Nat) : Nat :=
  if n % alignment = 0 then n else n + alignment - n % alignment

/-! ### Text -/

/-- The digits of a number in lower-case hexadecimal, without a mark. -/
def hexDigits (n : Nat) : String :=
  String.ofList (Nat.toDigits 16 n)

/-- The text of a number in lower-case hexadecimal, marked by `0x`. -/
def hex (n : Nat) : String :=
  "0x" ++ hexDigits n

end Word

end Accelerator
