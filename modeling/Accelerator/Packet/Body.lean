import Accelerator.Dim3
import Accelerator.Packet.Header

/-!
# Packet bodies

The four packet layouts that a queue can carry. Each is a list of words of 16, 32 and 64 bits that
fills exactly 64 bytes, stored little-endian and without padding. The first two fields are the
header and its companion; the last is the handle of the completion signal, at the same place in
every layout.

## Main definitions

* `KernelDispatch`, `AgentDispatch`, `Barrier`: the layouts; the two barrier types share one.
* `Layout`: the four kinds of packet, and `Body`: a packet of one of them.
* `Body.bytes`, `Body.ofBytes`: the 64 bytes of a packet, and the packet in 64 bytes.

## Main statements

* `Body.length_bytes`: every packet takes 64 bytes.
-/

namespace Accelerator

/-! ### Words inside a packet -/

namespace Packet

/-- Bytes of every packet. -/
def size : Nat := 64

/-- Alignment of every packet. -/
def alignment : Nat := 64

/-- Bytes of a 16-bit field. -/
def word16 (value : UInt16) : List UInt8 :=
  Word.bytes 2 value.toNat

/-- Bytes of a 32-bit field. -/
def word32 (value : UInt32) : List UInt8 :=
  Word.bytes 4 value.toNat

/-- Bytes of a 64-bit field. -/
def word64 (value : UInt64) : List UInt8 :=
  Word.bytes 8 value.toNat

/-- The 16-bit field at an offset. -/
def read16 (bs : List UInt8) (offset : Nat) : UInt16 :=
  .ofNat (Word.ofBytes ((bs.drop offset).take 2))

/-- The 32-bit field at an offset. -/
def read32 (bs : List UInt8) (offset : Nat) : UInt32 :=
  .ofNat (Word.ofBytes ((bs.drop offset).take 4))

/-- The 64-bit field at an offset. -/
def read64 (bs : List UInt8) (offset : Nat) : UInt64 :=
  .ofNat (Word.ofBytes ((bs.drop offset).take 8))

@[simp] theorem length_word16 (value : UInt16) : (word16 value).length = 2 := by simp [word16]

@[simp] theorem length_word32 (value : UInt32) : (word32 value).length = 4 := by simp [word32]

@[simp] theorem length_word64 (value : UInt64) : (word64 value).length = 8 := by simp [word64]

/-- Offset of the completion signal's handle in every packet. -/
def completionOffset : Nat := 56

end Packet

open Packet

/-! ### Kernel dispatch -/

/-- Runs a kernel over a grid of work-items. -/
structure KernelDispatch where
  header : UInt16
  setup : UInt16
  workgroup : Dim3 UInt16
  reserved0 : UInt16
  grid : Dim3 UInt32
  privateSegmentSize : UInt32
  groupSegmentSize : UInt32
  kernelObject : UInt64
  kernargAddress : UInt64
  reserved2 : UInt64
  completionSignal : UInt64
  deriving DecidableEq, Repr, Inhabited

namespace KernelDispatch

/-- The number of grid dimensions in the companion field. -/
def dimensions (p : KernelDispatch) : UInt8 :=
  dimensionsOfSetup p.setup

/-- The 64 bytes of the packet. -/
def bytes (p : KernelDispatch) : List UInt8 :=
  word16 p.header ++ word16 p.setup ++
    word16 p.workgroup.x ++ word16 p.workgroup.y ++ word16 p.workgroup.z ++ word16 p.reserved0 ++
    word32 p.grid.x ++ word32 p.grid.y ++ word32 p.grid.z ++
    word32 p.privateSegmentSize ++ word32 p.groupSegmentSize ++
    word64 p.kernelObject ++ word64 p.kernargAddress ++ word64 p.reserved2 ++
    word64 p.completionSignal

/-- The packet in 64 bytes. -/
def ofBytes (bs : List UInt8) : KernelDispatch where
  header := read16 bs 0
  setup := read16 bs 2
  workgroup := ⟨read16 bs 4, read16 bs 6, read16 bs 8⟩
  reserved0 := read16 bs 10
  grid := ⟨read32 bs 12, read32 bs 16, read32 bs 20⟩
  privateSegmentSize := read32 bs 24
  groupSegmentSize := read32 bs 28
  kernelObject := read64 bs 32
  kernargAddress := read64 bs 40
  reserved2 := read64 bs 48
  completionSignal := read64 bs 56

theorem length_bytes (p : KernelDispatch) : p.bytes.length = Packet.size := by
  simp [bytes, Packet.size]

end KernelDispatch

/-! ### Agent dispatch -/

/-- Number of arguments of an agent dispatch. -/
def AgentDispatch.argumentCount : Nat := 4

/-- Asks an agent for a function of its own. -/
structure AgentDispatch where
  header : UInt16
  functionType : UInt16
  reserved0 : UInt32
  returnAddress : UInt64
  arguments : Vector UInt64 AgentDispatch.argumentCount
  reserved2 : UInt64
  completionSignal : UInt64
  deriving DecidableEq, Repr, Inhabited

namespace AgentDispatch

/-- The 64 bytes of the packet. -/
def bytes (p : AgentDispatch) : List UInt8 :=
  word16 p.header ++ word16 p.functionType ++ word32 p.reserved0 ++ word64 p.returnAddress ++
    p.arguments.toList.flatMap word64 ++ word64 p.reserved2 ++ word64 p.completionSignal

/-- The packet in 64 bytes. -/
def ofBytes (bs : List UInt8) : AgentDispatch where
  header := read16 bs 0
  functionType := read16 bs 2
  reserved0 := read32 bs 4
  returnAddress := read64 bs 8
  arguments := .ofFn fun i => read64 bs (16 + 8 * i)
  reserved2 := read64 bs 48
  completionSignal := read64 bs 56

theorem length_bytes (p : AgentDispatch) : p.bytes.length = Packet.size := by
  have count : p.arguments.toList.length = 4 := p.arguments.length_toList
  simp [bytes, Packet.size, List.length_flatMap, List.map_const', count]

end AgentDispatch

/-! ### Barriers -/

/-- Number of signals that a barrier can depend on. -/
def Barrier.dependencyCount : Nat := 5

/-- Holds the queue until signals read 0: all of them, or one of them. -/
structure Barrier where
  header : UInt16
  reserved0 : UInt16
  reserved1 : UInt32
  dependencies : Vector UInt64 Barrier.dependencyCount
  reserved2 : UInt64
  completionSignal : UInt64
  deriving DecidableEq, Repr, Inhabited

namespace Barrier

/-- The 64 bytes of the packet. -/
def bytes (p : Barrier) : List UInt8 :=
  word16 p.header ++ word16 p.reserved0 ++ word32 p.reserved1 ++
    p.dependencies.toList.flatMap word64 ++ word64 p.reserved2 ++ word64 p.completionSignal

/-- The packet in 64 bytes. -/
def ofBytes (bs : List UInt8) : Barrier where
  header := read16 bs 0
  reserved0 := read16 bs 2
  reserved1 := read32 bs 4
  dependencies := .ofFn fun i => read64 bs (8 + 8 * i)
  reserved2 := read64 bs 48
  completionSignal := read64 bs 56

theorem length_bytes (p : Barrier) : p.bytes.length = Packet.size := by
  have count : p.dependencies.toList.length = 5 := p.dependencies.length_toList
  simp [bytes, Packet.size, List.length_flatMap, List.map_const', count]

end Barrier

/-! ### Packets of any kind -/

/-- The kinds of packet that have a layout. -/
inductive Layout where
  | kernel
  | agent
  | barrierAnd
  | barrierOr
  deriving DecidableEq, Repr, Inhabited

instance : Enumerated Layout where
  members := [.kernel, .agent, .barrierAnd, .barrierOr]
  name
    | .kernel => "kernel"
    | .agent => "agent"
    | .barrierAnd => "and"
    | .barrierOr => "or"
  mem_members a := by cases a <;> decide
  name_injective a b := by cases a <;> cases b <;> decide

namespace Layout

/-- The packet type that is published for a kind. -/
def type : Layout → PacketType
  | kernel => .kernelDispatch
  | agent => .agentDispatch
  | barrierAnd => .barrierAnd
  | barrierOr => .barrierOr

/-- The kind that a packet type is published for. -/
def ofType? : PacketType → Option Layout
  | .kernelDispatch => some kernel
  | .agentDispatch => some agent
  | .barrierAnd => some barrierAnd
  | .barrierOr => some barrierOr
  | .vendorSpecific | .invalid => none

theorem ofType?_eq_some_iff {t : PacketType} {l : Layout} : ofType? t = some l ↔ t = l.type := by
  cases t <;> cases l <;> decide

end Layout

/-- A packet of one of the four kinds. -/
inductive Body where
  | kernel (packet : KernelDispatch)
  | agent (packet : AgentDispatch)
  | barrierAnd (packet : Barrier)
  | barrierOr (packet : Barrier)
  deriving DecidableEq, Repr

namespace Body

/-- The kind of a packet. -/
def layout : Body → Layout
  | kernel _ => .kernel
  | agent _ => .agent
  | barrierAnd _ => .barrierAnd
  | barrierOr _ => .barrierOr

/-- The 64 bytes of a packet. -/
def bytes : Body → List UInt8
  | kernel p => p.bytes
  | agent p => p.bytes
  | barrierAnd p => p.bytes
  | barrierOr p => p.bytes

/-- The packet of a given kind in 64 bytes. -/
def ofBytes (layout : Layout) (bs : List UInt8) : Body :=
  match layout with
  | .kernel => kernel (.ofBytes bs)
  | .agent => agent (.ofBytes bs)
  | .barrierAnd => barrierAnd (.ofBytes bs)
  | .barrierOr => barrierOr (.ofBytes bs)

/-- The handle of the completion signal; 0 for none. -/
def completionSignal : Body → UInt64
  | kernel p => p.completionSignal
  | agent p => p.completionSignal
  | barrierAnd p => p.completionSignal
  | barrierOr p => p.completionSignal

theorem length_bytes (b : Body) : b.bytes.length = Packet.size := by
  cases b with
  | kernel p => exact p.length_bytes
  | agent p => exact p.length_bytes
  | barrierAnd p => exact p.length_bytes
  | barrierOr p => exact p.length_bytes

end Body

end Accelerator
