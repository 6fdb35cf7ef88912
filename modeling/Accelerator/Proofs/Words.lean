import Accelerator.Word
import Mathlib.Order.Bounds.Defs
import Mathlib.Tactic.Ring

/-!
# Words and their bytes

Reading little-endian bytes inverts writing them, byte for byte and number for number, and bytes
one behind the other spell a number with its low part in front. Rounding up to an alignment gives
the least multiple that is not below.

## Where these lemmas belong

They are about numbers and bytes and know nothing of packets or memory. Packets, rings, arguments
and memory all lay words out in bytes, and have that part of their theory here.

## Main results

* `Word.ofBytes_bytes`, `Word.bytes_ofBytes`: reading bytes inverts writing them, and every list
  of bytes is the writing of the number it spells.
* `Word.ofBytes_append`: the number that two lists of bytes spell together.
* `Word.isLeast_alignUp`: rounding up gives the least multiple that is not below.
-/

namespace Accelerator

namespace Word

/-! ### Little-endian bytes -/

theorem ofBytes_bytes (count n : Nat) : ofBytes (bytes count n) = n % 256 ^ count := by
  induction count generalizing n with
  | zero => simp [bytes, ofBytes, Nat.mod_one]
  | succ count ih =>
    have low : (UInt8.ofNat n).toNat = n % 256 := by simp
    rw [bytes, ofBytes, ih, low, Nat.pow_succ, Nat.mul_comm (256 ^ count) 256, Nat.mod_mul]

theorem ofBytes_lt (bs : List UInt8) : ofBytes bs < 256 ^ bs.length := by
  induction bs with
  | nil => simp [ofBytes]
  | cons b rest ih =>
    have := b.toNat_lt
    simp only [ofBytes, List.length_cons, Nat.pow_succ]
    omega

theorem bytes_ofBytes (bs : List UInt8) : bytes bs.length (ofBytes bs) = bs := by
  induction bs with
  | nil => rfl
  | cons b rest ih =>
    have small := b.toNat_lt
    have head : UInt8.ofNat (b.toNat + 256 * ofBytes rest) = b := by
      apply UInt8.toNat_inj.mp
      simp
    have tail : (b.toNat + 256 * ofBytes rest) / 256 = ofBytes rest := by omega
    simp only [ofBytes, List.length_cons, bytes, head, tail, ih]

theorem bytes_ofBytes_mod {bs : List UInt8} {count : Nat} (sized : bs.length = count) :
    bytes count (ofBytes bs % 256 ^ count) = bs := by
  subst sized
  rw [Nat.mod_eq_of_lt (ofBytes_lt bs), bytes_ofBytes]

/-- The first bytes are the low part of the number. -/
theorem ofBytes_append (low high : List UInt8) :
    ofBytes (low ++ high) = ofBytes low + 256 ^ low.length * ofBytes high := by
  induction low with
  | nil => simp [ofBytes]
  | cons b low ih =>
    rw [List.cons_append, ofBytes, ih, ofBytes, List.length_cons]
    ring

/-! ### Sums and rounding -/

theorem toNat_add_ofNat {a : UInt64} {i : Nat} (fits : a.toNat + i < 2 ^ 64) :
    (a + .ofNat i).toNat = a.toNat + i := by
  have small : i < 2 ^ 64 := by omega
  rw [UInt64.toNat_add, UInt64.toNat_ofNat_of_lt' (by exact small), Nat.mod_eq_of_lt fits]

/-- Rounding up gives the least multiple that is not below. -/
theorem isLeast_alignUp {alignment : Nat} (positive : 0 < alignment) (n : Nat) :
    IsLeast {m | n ≤ m ∧ alignment ∣ m} (alignUp n alignment) := by
  have split := Nat.div_add_mod n alignment
  have below := Nat.mod_lt n positive
  rw [alignUp]
  by_cases multiple : n % alignment = 0
  · rw [if_pos multiple]
    exact ⟨⟨le_rfl, Nat.dvd_of_mod_eq_zero multiple⟩, fun m h => h.1⟩
  · have next : n + alignment - n % alignment = alignment * (n / alignment + 1) := by
      rw [Nat.mul_succ]
      omega
    rw [if_neg multiple, next]
    refine ⟨⟨?_, Nat.dvd_mul_right ..⟩, ?_⟩
    · rw [Nat.mul_succ]
      omega
    · rintro m ⟨above, k, rfl⟩
      have later : alignment * (n / alignment) < alignment * k := by omega
      exact Nat.mul_le_mul_left _ (Nat.lt_of_mul_lt_mul_left later)

end Word

end Accelerator
