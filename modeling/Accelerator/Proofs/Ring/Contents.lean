import Accelerator.Proofs.Ring.Storage
import Mathlib.Data.List.Induction

/-!
# What a ring holds after any use

A ring is used in any order and with any indices: slots are filled, published and given back, and
the two indices are moved. What a slot shows in the end depends on the steps at its indices alone,
which are those that leave the same rest by the number of slots: its header word is that of the
last step that stored one, its payload that of the last packet it was filled with, and what none
of the steps stored is as in a new ring.

The words in memory go along with the ring, step by step.

## Header words and payloads apart

Filling a slot keeps its header word, publishing and giving back keep its payload. So there is no
last step that tells what a slot shows, but one for each of the two parts; `RingOp.last` is the same
search for both.

## Main definitions

* `RingOp.store`: what a step does to the memory of a ring.
* `RingOp.payload?`, `RingOp.word?`: what a step leaves in its slot.
* `RingOp.last`: what the last of many steps left in the slot of an index.

## Main results

* `RingOp.read_apply`: what a slot shows after one step.
* `RingOp.lays_store`: memory and ring go along.
* `PacketRing.holds_last`: what memory and ring show after any steps.
-/

namespace Accelerator

namespace RingOp

variable {size : UInt32} {i j : UInt64} {r : PacketRing} {m : RingWords} {op : RingOp}

/-- The memory after a step. -/
def store (m : RingWords) : RingOp → RingWords
  | write index packet => m.write index packet
  | publish index header companion => m.publish index header companion
  | retire index => m.retire index
  | setReadIndex index => { m with readIndex := index }
  | setWriteIndex index => { m with writeIndex := index }
  | compareAndSwapWriteIndex expected value =>
    { m with writeIndex := if m.writeIndex = expected then value else m.writeIndex }
  | addWriteIndex count => { m with writeIndex := m.writeIndex + count }

/-- The index at which a step changes a slot. -/
def index? : RingOp → Option UInt64
  | write index _ => some index
  | publish index _ _ => some index
  | retire index => some index
  | setReadIndex _ | setWriteIndex _ | compareAndSwapWriteIndex _ _ | addWriteIndex _ => none

/-- A step is at the slot of an index: its own index leaves the same rest. -/
def reaches (size : UInt32) (i : UInt64) (op : RingOp) : Bool :=
  op.index?.any fun j => j.toNat % size.toNat = i.toNat % size.toNat

/-- The payload that a step leaves in its slot. -/
def payload? : RingOp → Option (List UInt8)
  | write _ packet => some packet.payload
  | _ => none

/-- The header word that a step leaves in its slot. -/
def word? : RingOp → Option UInt32
  | publish _ header companion => some (header.word companion)
  | retire _ => some (Header.unpublished.word 0)
  | _ => none

/-- What the last of the steps at the slot of an index left there, if any of them left something
of the kind. -/
def last {α : Type} (leaves : RingOp → Option α) (fresh : α) (size : UInt32) (ops : List RingOp)
    (i : UInt64) : α :=
  ((ops.filter (·.reaches size i)).filterMap leaves).getLast?.getD fresh

/-! ### One step -/

/-- What a step does to its slot. -/
def change : RingOp → Slot → Slot
  | write _ packet, s => s.setBody packet
  | publish _ header companion, s => s.setWord (header.word companion)
  | retire _, s => s.setWord Slot.unpublished.word
  | _, s => s

theorem word_unpublished : Slot.unpublished.word = Header.unpublished.word 0 := by decide

theorem payload_change (op : RingOp) (s : Slot) :
    (op.change s).payload = op.payload?.getD s.payload := by
  cases op with
  | write index packet => exact s.payload_setBody packet
  | publish index header companion => exact s.payload_setWord _
  | retire index => exact s.payload_setWord _
  | _ => rfl

theorem word_change (op : RingOp) (s : Slot) : (op.change s).word = op.word?.getD s.word := by
  cases op with
  | write index packet => exact s.word_setBody packet
  | publish index header companion => exact s.word_setWord _
  | retire index => exact (s.word_setWord _).trans word_unpublished
  | _ => rfl

theorem apply_of_index? (here : op.index? = some j) : op.apply r = r.modifySlot j op.change := by
  cases op <;> cases here <;> rfl

/-- A step without a slot moves an index only. -/
theorem slots_apply (none : op.index? = none) : (op.apply r).slots = r.slots := by
  cases op with
  | compareAndSwapWriteIndex expected value =>
    rw [apply, PacketRing.compareAndSwapWriteIndex]
    split <;> rfl
  | setReadIndex | setWriteIndex | addWriteIndex => rfl
  | write | publish | retire => cases none

theorem size_apply (r : PacketRing) (op : RingOp) : (op.apply r).slots.size = r.slots.size := by
  cases found : op.index? with
  | none => rw [slots_apply found]
  | some j => rw [apply_of_index? found, PacketRing.size_modifySlot]

/-- What a slot shows after a step: a step at one of its indices changes it, and no other. -/
theorem read_apply (sized : r.IsSized) (count : r.slots.size = size.toNat) (op : RingOp)
    (i : UInt64) :
    (op.apply r).read i = if op.reaches size i then op.change (r.read i) else r.read i := by
  cases found : op.index? with
  | none =>
    have apart : op.reaches size i = false := by simp [reaches, found]
    have same := slots_apply (r := r) found
    rw [apart, if_neg Bool.false_ne_true, PacketRing.read, PacketRing.place, PacketRing.size, same]
    rfl
  | some j =>
    have rest : op.reaches size i = true ↔ r.place j = r.place i := by
      rw [PacketRing.place_eq_mod sized, PacketRing.place_eq_mod sized, count]
      simp [reaches, found]
    rw [apply_of_index? found]
    by_cases same : r.place j = r.place i
    · have shown := PacketRing.read_modifySlot_self sized j op.change
      rw [PacketRing.read_congr same] at shown
      rw [if_pos (rest.mpr same), ← shown]
      exact PacketRing.read_congr (by simpa using same.symm)
    · rw [if_neg fun at_ => same (rest.mp at_), PacketRing.read_modifySlot_of_ne same]

/-- A step that stores no header word leaves the header words of all slots. -/
theorem word_apply (sized : r.IsSized) (count : r.slots.size = size.toNat) (op : RingOp)
    (none : op.word? = none) (i : UInt64) : ((op.apply r).read i).word = (r.read i).word := by
  rw [read_apply sized count]
  split
  · rw [word_change, none, Option.getD_none]
  · rfl

/-- A step that stores no payload leaves the payloads of all slots. -/
theorem payload_apply (sized : r.IsSized) (count : r.slots.size = size.toNat) (op : RingOp)
    (none : op.payload? = none) (i : UInt64) :
    ((op.apply r).read i).payload = (r.read i).payload := by
  rw [read_apply sized count]
  split
  · rw [payload_change, none, Option.getD_none]
  · rfl

/-- A step at a slot leaves the indices. -/
theorem indices_apply (here : op.index? = some j) :
    (op.apply r).readIndex = r.readIndex ∧ (op.apply r).writeIndex = r.writeIndex := by
  rw [apply_of_index? here]
  exact ⟨rfl, rfl⟩

/-- Memory and ring go along. -/
theorem lays_store (lays : m.Lays r) (op : RingOp) : (op.store m).Lays (op.apply r) := by
  cases op with
  | write index packet => exact lays.write index packet
  | publish index header companion => exact lays.publish index header companion
  | retire index => exact lays.retire index
  | setReadIndex index => exact ⟨lays.shaped, lays.size, lays.load, rfl, lays.writeIndex⟩
  | setWriteIndex index => exact ⟨lays.shaped, lays.size, lays.load, lays.readIndex, rfl⟩
  | addWriteIndex count =>
    exact ⟨lays.shaped, lays.size, lays.load, lays.readIndex,
      congrArg (· + count) lays.writeIndex⟩
  | compareAndSwapWriteIndex expected value =>
    rw [store, apply, PacketRing.compareAndSwapWriteIndex, lays.writeIndex]
    by_cases same : r.writeIndex = expected
    · rw [if_pos same, if_pos same]
      exact ⟨lays.shaped, lays.size, lays.load, lays.readIndex, rfl⟩
    · rw [if_neg same, if_neg same]
      exact ⟨lays.shaped, lays.size, lays.load, lays.readIndex, rfl⟩

/-! ### Many steps -/

theorem last_concat {α : Type} (leaves : RingOp → Option α) (fresh : α) (size : UInt32)
    (ops : List RingOp) (op : RingOp) (i : UInt64) :
    last leaves fresh size (ops ++ [op]) i =
      if op.reaches size i then (leaves op).getD (last leaves fresh size ops i)
      else last leaves fresh size ops i := by
  rw [last, List.filter_append, List.filterMap_append]
  by_cases here : op.reaches size i
  · cases left : leaves op <;> simp [here, left, last]
  · simp [here, last]

theorem size_foldl_apply (r : PacketRing) (ops : List RingOp) :
    (ops.foldl apply r).slots.size = r.slots.size := by
  induction ops generalizing r with
  | nil => rfl
  | cons op rest ih => rw [List.foldl_cons, ih, size_apply]

theorem lays_foldl_store (lays : m.Lays r) (ops : List RingOp) :
    (ops.foldl store m).Lays (ops.foldl apply r) := by
  induction ops generalizing m r with
  | nil => exact lays
  | cons op rest ih => exact ih (lays_store lays op)

end RingOp

namespace PacketRing

open RingOp (payload? word? last)

variable {size : UInt32}

theorem payload_unpublished : Slot.unpublished.payload = List.replicate 60 0 := by decide

/-- After any steps, a slot shows what the last of the steps at its indices left there. -/
theorem read_foldl_apply (h : size.toNat.isPowerOfTwo) (ops : List RingOp) (i : UInt64) :
    ((ops.foldl RingOp.apply (.ofSize size)).read i).payload =
        last payload? (List.replicate 60 0) size ops i ∧
      ((ops.foldl RingOp.apply (.ofSize size)).read i).word =
        last word? (Header.unpublished.word 0) size ops i := by
  induction ops using List.reverseRecOn with
  | nil =>
    have fresh : (ofSize size).read i = .unpublished := by simp [read, ofSize, Array.getD]
    rw [List.foldl_nil, fresh]
    exact ⟨payload_unpublished, RingOp.word_unpublished⟩
  | append_singleton ops op ih =>
    have same : (ops.foldl RingOp.apply (.ofSize size)).slots.size = (ofSize size).slots.size :=
      RingOp.size_foldl_apply ..
    have count : (ofSize size).slots.size = size.toNat := Array.size_replicate
    have step := RingOp.read_apply ((isSized_ofSize h).congr same) (same.trans count) op i
    rw [List.foldl_append, List.foldl_cons, List.foldl_nil, step, RingOp.last_concat,
      RingOp.last_concat, ← ih.1, ← ih.2]
    split
    · exact ⟨op.payload_change _, op.word_change _⟩
    · exact ⟨rfl, rfl⟩

/-- A ring is a map from the rests of indices to slots, and so is its memory. After any steps on a
new ring with a number of slots that is a power of two, the slot of an index shows the payload of
the last packet written at its slot, zeros if there was none, and the header word last published
or given back there. The memory shows the same words. A further step leaves what is not its own:
filling a slot leaves all header words, publishing and retiring leave all payloads, a step at a slot
leaves the other slots and the indices, and moving an index leaves all slots. Going round at
`2 ^ 64` leaves nothing out, and a round of slots leads back to the same slot. -/
theorem holds_last {size : UInt32} (h : size.toNat.isPowerOfTwo) (ops : List RingOp) :
    let r := ops.foldl RingOp.apply (ofSize size)
    let m := ops.foldl RingOp.store (RingWords.ofSize size)
    (∀ i, (r.read i).payload = last payload? (List.replicate 60 0) size ops i ∧
      (r.read i).word = last word? (Header.unpublished.word 0) size ops i) ∧
    (m.readIndex = r.readIndex ∧ m.writeIndex = r.writeIndex ∧
      ∀ i, m.read i = (r.read i).bytes ∧ m.word i = r.word i ∧ r.word i = (r.read i).word ∧
        r.header i = .ofWord (m.word i)) ∧
    (∀ i packet j, (r.write i packet).word j = r.word j) ∧
    (∀ i header companion j,
      ((r.publish i header companion).read j).payload = (r.read j).payload) ∧
    (∀ i j, ((r.retire i).read j).payload = (r.read j).payload) ∧
    (∀ op : RingOp, op.index?.isSome → (op.apply r).readIndex = r.readIndex ∧
      (op.apply r).writeIndex = r.writeIndex ∧
      ∀ j, op.reaches size j = false → (op.apply r).read j = r.read j) ∧
    (∀ op : RingOp, op.index? = none → (op.apply r).slots = r.slots) ∧
    (∀ i, r.read (i + size.toUInt64) = r.read i) := by
  intro r m
  have count : r.slots.size = size.toNat :=
    (RingOp.size_foldl_apply (ofSize size) ops).trans Array.size_replicate
  have sized : r.IsSized := (isSized_ofSize h).congr (RingOp.size_foldl_apply (ofSize size) ops)
  have lays : m.Lays r := RingOp.lays_foldl_store (RingWords.lays_ofSize h) ops
  have first : ∀ i, m.word i = r.word i := fun i => lays.load i 0 (by decide)
  refine ⟨read_foldl_apply h ops, ⟨lays.readIndex, lays.writeIndex, fun i => ?_⟩,
    fun i packet j => ?_, fun i header companion j => ?_, fun i j => ?_, fun op slot => ?_,
    fun op => RingOp.slots_apply, fun i => read_congr ?_⟩
  · rw [header, first]
    exact ⟨lays.read_eq i, rfl, rfl, rfl⟩
  · exact RingOp.word_apply sized count (.write i packet) rfl j
  · exact RingOp.payload_apply sized count (.publish i header companion) rfl j
  · exact RingOp.payload_apply sized count (.retire i) rfl j
  · obtain ⟨i, here⟩ := Option.isSome_iff_exists.mp slot
    have kept := RingOp.indices_apply (r := r) here
    refine ⟨kept.1, kept.2, fun j apart => ?_⟩
    rw [RingOp.read_apply sized count, apart, if_neg Bool.false_ne_true]
  · -- the number of slots divides `2 ^ 64`
    have round : i + size.toUInt64 = .ofNat (i.toNat + size.toNat) := by
      refine UInt64.toNat_inj.mp ?_
      rw [UInt64.toNat_add, UInt32.toNat_toUInt64, UInt64.toNat_ofNat']
    rw [round, place_ofNat sized, place_eq_mod sized, count, Nat.add_mod_right]

/-- Two slots, used at the end of the index range. -/
theorem holds_last_two :
    let packet := Slot.ofBytes [1, 2, 3, 4, 5, 6, 7, 8]
    let ops := [RingOp.write 0xfffffffffffffffe packet, .publish 0xffffffffffffffff ⟨5⟩ 9,
      .addWriteIndex 3]
    (2 : UInt32).toNat.isPowerOfTwo ∧
      ((ops.foldl RingOp.apply (ofSize 2)).read 0).payload = packet.payload ∧
      ((ops.foldl RingOp.apply (ofSize 2)).read 1).word = Header.word ⟨5⟩ 9 := by
  intro packet ops
  have two : (2 : UInt32).toNat.isPowerOfTwo := ⟨1, rfl⟩
  obtain ⟨holds, -⟩ := holds_last two ops
  have payload : last payload? (List.replicate 60 0) 2 ops 0 = packet.payload := by decide
  have word : last word? (Header.unpublished.word 0) 2 ops 1 = Header.word ⟨5⟩ 9 := by decide
  exact ⟨two, (holds 0).1.trans payload, (holds 1).2.trans word⟩

end PacketRing

end Accelerator
