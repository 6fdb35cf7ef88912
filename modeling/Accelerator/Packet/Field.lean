import Accelerator.Packet.Slot

/-!
# Fields of packets

A layout can be seen as a table of fields: each has a name and is one word, or some words of one
width behind each other, at a fixed offset. The fields of a layout stand behind each other without
gaps and fill the slot.

## Main definitions

* `PacketField`, `Layout.fields`: the tables.
* `PacketField.words`, `PacketField.bytes`: the words of a field in a slot, and the bytes of words.
* `Slot.ofFields`: the slot whose fields hold given words.
-/

namespace Accelerator

/-- A field of a layout: `count` words of `width` bytes each, from an offset on. -/
structure PacketField where
  name : String
  offset : Nat
  width : Nat
  count : Nat
  deriving DecidableEq, Repr, Inhabited

namespace PacketField

/-- Bytes that a field takes. -/
def length (d : PacketField) : Nat :=
  d.width * d.count

/-- The words of a field in the bytes of a slot. -/
def words (d : PacketField) (bs : List UInt8) : List Nat :=
  (List.range d.count).map fun i =>
    Word.ofBytes ((bs.drop (d.offset + d.width * i)).take d.width)

/-- The bytes of a field that holds given words; words that are not given are 0. -/
def bytes (d : PacketField) (ws : List Nat) : List UInt8 :=
  (List.range d.count).flatMap fun i => Word.bytes d.width (ws.getD i 0)

theorem length_bytes (d : PacketField) (ws : List Nat) : (d.bytes ws).length = d.length := by
  simp [bytes, length, List.length_flatMap, List.map_const', Nat.mul_comm]

end PacketField

namespace Layout

/-- The fields of a layout in order. -/
def fields : Layout → List PacketField
  | kernel =>
    [⟨"header", 0, 2, 1⟩, ⟨"setup", 2, 2, 1⟩, ⟨"workgroup", 4, 2, 3⟩, ⟨"reserved0", 10, 2, 1⟩,
      ⟨"grid", 12, 4, 3⟩, ⟨"private_segment_size", 24, 4, 1⟩, ⟨"group_segment_size", 28, 4, 1⟩,
      ⟨"kernel_object", 32, 8, 1⟩, ⟨"kernarg_address", 40, 8, 1⟩, ⟨"reserved2", 48, 8, 1⟩,
      ⟨"completion_signal", 56, 8, 1⟩]
  | agent =>
    [⟨"header", 0, 2, 1⟩, ⟨"function_type", 2, 2, 1⟩, ⟨"reserved0", 4, 4, 1⟩,
      ⟨"return_address", 8, 8, 1⟩, ⟨"arg", 16, 8, AgentDispatch.argumentCount⟩,
      ⟨"reserved2", 48, 8, 1⟩, ⟨"completion_signal", 56, 8, 1⟩]
  | barrierAnd | barrierOr =>
    [⟨"header", 0, 2, 1⟩, ⟨"reserved0", 2, 2, 1⟩, ⟨"reserved1", 4, 4, 1⟩,
      ⟨"dep_signal", 8, 8, Barrier.dependencyCount⟩, ⟨"reserved2", 48, 8, 1⟩,
      ⟨"completion_signal", 56, 8, 1⟩]

end Layout

/-- The slot whose fields hold given words, in the order of the fields. -/
def Slot.ofFields (l : Layout) (values : List (List Nat)) : Slot :=
  .ofBytes (List.zipWith PacketField.bytes l.fields values).flatten

end Accelerator
