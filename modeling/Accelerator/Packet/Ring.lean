import Accelerator.Memory.Host
import Accelerator.Packet.Slot

/-!
# Rings

A queue keeps its packets in a ring of slots. Slots are addressed by indices that grow without
bound, modulo the number of slots; two indices bound the packets in the ring: the write index
counts the slots ever reserved, the read index the slots ever consumed. The number of slots is a
power of two, so the place of an index is its lowest bits, and stays right when an index passes
`2 ^ 64`.

## Main definitions

* `PacketRing`: the slots and the two indices.
* `PacketRing.allocate?`: a ring in fresh memory.
* `PacketRing.isFullAt`: the slot of an index is still taken by an earlier index.
* `PacketRing.read`, `PacketRing.word`, `PacketRing.header`: what the slot of an index shows.
* `PacketRing.write`, `PacketRing.publish`, `PacketRing.retire`: filling a slot, handing it over,
  giving it back.
* `PacketRing.addWriteIndex`, `PacketRing.compareAndSwapWriteIndex`: reserving slots.
* `RingOp`, `RingOp.apply`: all that is done to a ring, step by step.
-/

namespace Accelerator

/-- Slots for packets with the index of the next packet to read and of the next slot to reserve. -/
structure PacketRing where
  slots : Array Slot
  readIndex : UInt64
  writeIndex : UInt64

namespace PacketRing

/-- Bytes that a ring of the given number of slots takes. -/
def storageBytes (size : UInt32) : UInt64 :=
  .ofNat (size.toNat * Packet.size)

/-- A ring of the given number of slots, none of which has been reserved. -/
def ofSize (size : UInt32) : PacketRing :=
  ⟨.replicate size.toNat .unpublished, 0, 0⟩

instance : Inhabited PacketRing := ⟨ofSize 1⟩

/-- A ring with storage from the host, by the address of its first slot. The number of slots must
be a power of two. -/
def allocate? (size : UInt32) (host : Host) : Option (PacketRing × UInt64 × Host) :=
  if size.toNat.isPowerOfTwo then
    (host.allocate? (storageBytes size).toNat Packet.alignment).map fun (start, host) =>
      (ofSize size, start, host)
  else none

/-- The number of slots. -/
def size (r : PacketRing) : UInt64 :=
  .ofNat r.slots.size

/-- The place of an index among the slots: its lowest bits. -/
def place (r : PacketRing) (index : UInt64) : Nat :=
  (index &&& (r.size - 1)).toNat

/-! ### Indices -/

/-- Sets the read index. -/
def setReadIndex (r : PacketRing) (index : UInt64) : PacketRing :=
  { r with readIndex := index }

/-- Sets the write index. -/
def setWriteIndex (r : PacketRing) (index : UInt64) : PacketRing :=
  { r with writeIndex := index }

/-- Sets the write index to `value` if it is `expected`; shows what it was. -/
def compareAndSwapWriteIndex (r : PacketRing) (expected value : UInt64) : UInt64 × PacketRing :=
  (r.writeIndex, if r.writeIndex = expected then { r with writeIndex := value } else r)

/-- Advances the write index, past `2 ^ 64` if need be; shows what it was. -/
def addWriteIndex (r : PacketRing) (count : UInt64) : UInt64 × PacketRing :=
  (r.writeIndex, { r with writeIndex := r.writeIndex + count })

/-- The slot of an index still belongs to an index one round earlier. -/
def isFullAt (r : PacketRing) (index : UInt64) : Bool :=
  r.size ≤ index - r.readIndex

/-! ### Slots -/

/-- The slot of an index. -/
def read (r : PacketRing) (index : UInt64) : Slot :=
  r.slots.getD (r.place index) .unpublished

/-- The header word in the slot of an index. -/
def word (r : PacketRing) (index : UInt64) : UInt32 :=
  (r.read index).word

/-- The header in the slot of an index. -/
def header (r : PacketRing) (index : UInt64) : Header :=
  .ofWord (r.word index)

/-- Changes the slot of an index. -/
def modifySlot (r : PacketRing) (index : UInt64) (f : Slot → Slot) : PacketRing :=
  { r with slots := r.slots.modify (r.place index) f }

/-- Fills the slot of an index with a packet, all but its header word. -/
def write (r : PacketRing) (index : UInt64) (packet : Slot) : PacketRing :=
  r.modifySlot index fun slot => slot.setBody packet

/-- Stores the header word of an index, which hands the slot to the consumer. -/
def publish (r : PacketRing) (index : UInt64) (header : Header) (companion : UInt16) : PacketRing :=
  r.modifySlot index fun slot => slot.setWord (header.word companion)

/-- Gives the slot of an index back: its header is that of an unpublished slot again. -/
def retire (r : PacketRing) (index : UInt64) : PacketRing :=
  r.modifySlot index fun slot => slot.setWord Slot.unpublished.word

/-- The ring as shown in messages. -/
def describe (r : PacketRing) : String :=
  Text.record "RingBuffer"
    [("size", toString r.slots.size), ("read_index", toString r.readIndex.toNat),
      ("write_index", toString r.writeIndex.toNat)] false

end PacketRing

/-! ### Steps -/

/-- A step in the use of a ring. -/
inductive RingOp where
  | write (index : UInt64) (packet : Slot)
  | publish (index : UInt64) (header : Header) (companion : UInt16)
  | retire (index : UInt64)
  | setReadIndex (index : UInt64)
  | setWriteIndex (index : UInt64)
  | compareAndSwapWriteIndex (expected value : UInt64)
  | addWriteIndex (count : UInt64)

namespace RingOp

/-- The ring after a step. -/
def apply (r : PacketRing) : RingOp → PacketRing
  | write index packet => r.write index packet
  | publish index header companion => r.publish index header companion
  | retire index => r.retire index
  | setReadIndex index => r.setReadIndex index
  | setWriteIndex index => r.setWriteIndex index
  | compareAndSwapWriteIndex expected value => (r.compareAndSwapWriteIndex expected value).2
  | addWriteIndex count => (r.addWriteIndex count).2

end RingOp

end Accelerator
