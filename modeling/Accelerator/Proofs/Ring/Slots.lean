import Accelerator.Packet.Ring
import Accelerator.Proofs.Words
import Mathlib.Data.Nat.Bitwise

/-!
# Reading back what a ring holds

A slot is its header word and all that follows it, its *payload*; each of the two can be replaced
without the other. A ring whose number of slots is a power of two keeps the slot of an index at the
rest of the index by that number, so a change of one slot shows at the indices that differ by a
multiple of it, and nowhere else.

## Powers of two

`IsSized` asks for a power of two because indices go round at `2 ^ 64`. With three slots, say, the
last index and the index 0 that follows it would have one slot.

## Main definitions

* `Slot.payload`: all of a slot but its header word.
* `PacketRing.IsSized`: the number of slots is a power of two that fits 32 bits.

## Main results

* `Slot.eq_of_word_payload`: header word and payload make the slot.
* `Header.ofWord_word`, `companionOfWord_word`: what a header word was made of.
* `PacketRing.place_eq_mod`, `PacketRing.place_ofNat`: the place of an index.
* `PacketRing.read_modifySlot_self`, `PacketRing.read_modifySlot_of_ne`: reading after a change.
-/

namespace Accelerator

/-! ### The parts of a slot -/

namespace Slot

variable {s t : Slot}

/-- All of a slot but its header word. -/
def payload (s : Slot) : List UInt8 :=
  s.bytes.drop 4

theorem word32_word (s : Slot) : Packet.word32 s.word = s.bytes.take 4 := by
  have four : (s.bytes.take 4).length = 4 := by
    rw [List.length_take, s.length_bytes]
    rfl
  have fits : Word.ofBytes (s.bytes.take 4) < 2 ^ 32 := by
    have := Word.ofBytes_lt (s.bytes.take 4)
    rwa [four] at this
  have spelled := Word.bytes_ofBytes (s.bytes.take 4)
  rw [four] at spelled
  rw [Packet.word32, word, Packet.read32, List.drop_zero, UInt32.toNat_ofNat_of_lt' fits, spelled]

/-- Header word and payload make the slot. -/
theorem eq_of_word_payload (hw : s.word = t.word) (hp : s.payload = t.payload) : s = t := by
  refine Slot.ext ?_
  rw [← List.take_append_drop 4 s.bytes, ← List.take_append_drop 4 t.bytes, ← word32_word,
    ← word32_word, hw]
  exact congrArg _ hp

@[simp] theorem word_setWord (s : Slot) (word : UInt32) : (s.setWord word).word = word := by
  have four : Word.ofBytes (Packet.word32 word) = word.toNat := by
    rw [Packet.word32, Word.ofBytes_bytes]
    exact Nat.mod_eq_of_lt word.toNat_lt
  have front : (Packet.word32 word ++ s.bytes.drop 4).take 4 = Packet.word32 word :=
    List.take_left' (Packet.length_word32 word)
  rw [Slot.word, Packet.read32, List.drop_zero, setWord, front, four, UInt32.ofNat_toNat]

@[simp] theorem payload_setWord (s : Slot) (word : UInt32) :
    (s.setWord word).payload = s.payload :=
  List.drop_left' (Packet.length_word32 word)

theorem length_take_four (s : Slot) : (s.bytes.take 4).length = 4 := by
  rw [List.length_take, s.length_bytes]
  rfl

@[simp] theorem word_setBody (s content : Slot) : (s.setBody content).word = s.word := by
  rw [word, word, Packet.read32, Packet.read32, List.drop_zero, List.drop_zero, setBody,
    List.take_left' s.length_take_four]

@[simp] theorem payload_setBody (s content : Slot) :
    (s.setBody content).payload = content.payload :=
  List.drop_left' s.length_take_four

end Slot

/-! ### Header words -/

theorem Header.toNat_word (h : Header) (companion : UInt16) :
    (h.word companion).toNat = h.bits.toNat + 2 ^ 16 * companion.toNat := by
  have low := h.bits.toNat_lt
  have high := companion.toNat_lt
  have shifted : (companion.toUInt32 <<< 16).toNat = 2 ^ 16 * companion.toNat := by
    rw [UInt32.toNat_shiftLeft, UInt16.toNat_toUInt32, Nat.shiftLeft_eq, Nat.mul_comm]
    exact Nat.mod_eq_of_lt (by change 2 ^ 16 * _ < _; omega)
  rw [word, UInt32.toNat_or, UInt16.toNat_toUInt32, shifted, Nat.or_comm,
    ← Nat.two_pow_add_eq_or_of_lt low, Nat.add_comm]

@[simp] theorem Header.ofWord_word (h : Header) (companion : UInt16) :
    Header.ofWord (h.word companion) = h := by
  have low := h.bits.toNat_lt
  refine congrArg Header.mk (UInt16.toNat_inj.mp ?_)
  rw [UInt32.toNat_toUInt16, toNat_word]
  omega

@[simp] theorem companionOfWord_word (h : Header) (companion : UInt16) :
    companionOfWord (h.word companion) = companion := by
  have low := h.bits.toNat_lt
  have high := companion.toNat_lt
  refine UInt16.toNat_inj.mp ?_
  rw [companionOfWord, UInt32.toNat_toUInt16, UInt32.toNat_shiftRight, h.toNat_word]
  change (_ >>> 16) % _ = _
  rw [Nat.shiftRight_eq_div_pow]
  omega

/-- The header word of a slot that is not published. -/
theorem isUnpublished_unpublished : (Header.ofWord Slot.unpublished.word).isUnpublished = true := by
  decide

/-! ### Places -/

namespace PacketRing

variable {r : PacketRing} {i j : UInt64}

/-- The number of slots is a power of two that fits 32 bits. -/
def IsSized (r : PacketRing) : Prop :=
  ∃ k < 32, r.slots.size = 2 ^ k

theorem isSized_ofSize {size : UInt32} (h : size.toNat.isPowerOfTwo) : (ofSize size).IsSized := by
  obtain ⟨k, hk⟩ := h
  refine ⟨k, (Nat.pow_lt_pow_iff_right (by decide : 1 < 2)).mp ?_, ?_⟩
  · rw [← hk]
    exact size.toNat_lt
  · rw [← hk]
    exact Array.size_replicate

theorem IsSized.congr {r' : PacketRing} (h : r.IsSized) (same : r'.slots.size = r.slots.size) :
    r'.IsSized := by
  obtain ⟨k, small, hk⟩ := h
  exact ⟨k, small, same.trans hk⟩

theorem IsSized.pos (h : r.IsSized) : 0 < r.slots.size := by
  obtain ⟨k, _, hk⟩ := h
  rw [hk]
  exact Nat.two_pow_pos k

theorem IsSized.lt (h : r.IsSized) : r.slots.size < 2 ^ 32 := by
  obtain ⟨k, small, hk⟩ := h
  rw [hk]
  exact Nat.pow_lt_pow_right (by decide) small

theorem toNat_size (h : r.IsSized) : r.size.toNat = r.slots.size := by
  exact UInt64.toNat_ofNat_of_lt' (h.lt.trans (by decide))

/-- The place of an index is its rest by the number of slots. -/
theorem place_eq_mod (h : r.IsSized) (i : UInt64) : r.place i = i.toNat % r.slots.size := by
  have mask : (r.size - 1).toNat = r.slots.size - 1 := by
    rw [UInt64.toNat_sub_of_le _ _ (UInt64.le_iff_toNat_le.mpr _), toNat_size h]
    · rfl
    · rw [toNat_size h]
      exact h.pos
  obtain ⟨k, _, hk⟩ := h
  rw [place, UInt64.toNat_and, mask, hk, Nat.and_two_pow_sub_one_eq_mod]

/-- Indices go round at `2 ^ 64` without leaving their places. -/
theorem place_ofNat (h : r.IsSized) (n : Nat) : r.place (.ofNat n) = n % r.slots.size := by
  obtain ⟨k, small, hk⟩ := h
  rw [place_eq_mod ⟨k, small, hk⟩, UInt64.toNat_ofNat', hk]
  exact Nat.mod_mod_of_dvd n (Nat.pow_dvd_pow 2 (by omega))

theorem place_lt (h : r.IsSized) (i : UInt64) : r.place i < r.slots.size := by
  rw [place_eq_mod h]
  exact Nat.mod_lt _ h.pos

theorem read_congr (same : r.place i = r.place j) : r.read i = r.read j := by
  rw [read, read, same]

/-! ### Changing one slot -/

@[simp] theorem size_modifySlot (r : PacketRing) (i : UInt64) (f : Slot → Slot) :
    (r.modifySlot i f).slots.size = r.slots.size :=
  Array.size_modify

@[simp] theorem place_modifySlot (r : PacketRing) (i j : UInt64) (f : Slot → Slot) :
    (r.modifySlot i f).place j = r.place j := by
  rw [place, place, size, size, size_modifySlot]

theorem read_modifySlot_of_lt (inside : r.place i < r.slots.size) (f : Slot → Slot) :
    (r.modifySlot i f).read i = f (r.read i) := by
  rw [read, place_modifySlot, read, modifySlot]
  simp [Array.getD, Array.getElem_modify, inside]

theorem read_modifySlot_self (h : r.IsSized) (i : UInt64) (f : Slot → Slot) :
    (r.modifySlot i f).read i = f (r.read i) :=
  read_modifySlot_of_lt (place_lt h i) f

theorem read_modifySlot_of_ne (h : r.place i ≠ r.place j) (f : Slot → Slot) :
    (r.modifySlot i f).read j = r.read j := by
  rw [read, place_modifySlot, read, modifySlot]
  simp [Array.getD, Array.getElem_modify, h]

end PacketRing

end Accelerator
