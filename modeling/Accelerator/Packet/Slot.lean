import Accelerator.Packet.Body

/-!
# Slots

A slot is the untyped storage of one packet: 64 bytes of which the first four are the header word.
A packet of any kind can be put into a slot and taken out of it; which kind a slot holds is told
by the type in its header.

## Main definitions

* `Slot`: 64 bytes.
* `Slot.ofBody`, `Slot.body`: a packet as a slot, and a slot as a packet of a given kind.
* `Slot.word`, `Slot.header`, `Slot.completionSignal`: what every slot shows.
* `Slot.setWord`, `Slot.setBody`: replacing the header word, or all that follows it.
-/

namespace Accelerator

/-- Storage of one packet. -/
structure Slot where
  bytes : List UInt8
  length_bytes : bytes.length = Packet.size

namespace Slot

@[ext] theorem ext {s t : Slot} (h : s.bytes = t.bytes) : s = t := by
  cases s
  cases t
  cases h
  rfl

/-- The slot that holds a packet. -/
def ofBody (b : Body) : Slot :=
  ⟨b.bytes, b.length_bytes⟩

/-- The slot's bytes read as a packet of a given kind. -/
def body (s : Slot) (layout : Layout) : Body :=
  .ofBytes layout s.bytes

/-- The slot that holds up to 64 given bytes, zeros after them. -/
def ofBytes (bs : List UInt8) : Slot :=
  ⟨(bs ++ List.replicate Packet.size 0).take Packet.size, by simp⟩

/-- A slot before anything is published in it: an unpublished header and zeros. -/
def unpublished : Slot :=
  .ofBytes (Packet.word16 Header.unpublished.bits)

instance : Inhabited Slot := ⟨unpublished⟩

/-- The header word, in the first four bytes. -/
def word (s : Slot) : UInt32 :=
  Packet.read32 s.bytes 0

/-- The header. -/
def header (s : Slot) : Header :=
  .ofWord s.word

/-- The handle of the completion signal, which every layout keeps at the same place. -/
def completionSignal (s : Slot) : UInt64 :=
  Packet.read64 s.bytes Packet.completionOffset

/-- The slot with another header word. -/
def setWord (s : Slot) (word : UInt32) : Slot :=
  ⟨Packet.word32 word ++ s.bytes.drop 4, by simp [s.length_bytes, Packet.size]⟩

/-- The slot with all but its header word taken from another slot. -/
def setBody (s content : Slot) : Slot :=
  ⟨s.bytes.take 4 ++ content.bytes.drop 4, by
    simp [s.length_bytes, content.length_bytes, Packet.size]⟩

/-- The slot as shown in messages: its header. -/
def describe (s : Slot) : String :=
  Text.record "AqlPacket" [("header", s.header.describe)] true

end Slot

end Accelerator
