import Accelerator.Enumerated
import Accelerator.Text.Quoted

/-!
# Packet headers

Every packet begins with a 16-bit header that names its type, its barrier flag and its two fence
scopes. The header is followed by 16 bits whose meaning depends on the type: the *companion*
field. Both together are the *header word*, which is stored last and at once to publish a packet.

    bits  0–7   packet type
    bit   8     barrier flag
    bits  9–10  acquire fence scope
    bits 11–12  release fence scope
    bits 13–15  unused

## Main definitions

* `PacketType`, `FenceScope`, `Header`.
* `Header.ofType`, `Header.withBarrier`, `Header.withAcquire`, `Header.withRelease`: building.
* `Header.type?`, `Header.barrier`, `Header.acquire`, `Header.release`: reading.
* `Header.word`, `Header.ofWord`, `companionOfWord`: the header word.
* `setupOfDimensions`, `dimensionsOfSetup`: the companion field of a kernel dispatch.
-/

namespace Accelerator

/-! ### Packet types -/

/-- What a packet asks for; `invalid` marks a slot that is reserved but not yet published. -/
inductive PacketType where
  | vendorSpecific
  | invalid
  | kernelDispatch
  | barrierAnd
  | agentDispatch
  | barrierOr
  deriving DecidableEq, Repr, Inhabited

namespace PacketType

/-- The number that stands for a packet type in a header. -/
def code : PacketType → UInt8
  | vendorSpecific => 0
  | invalid => 1
  | kernelDispatch => 2
  | barrierAnd => 3
  | agentDispatch => 4
  | barrierOr => 5

/-- The packet type with a given number; numbers above 5 stand for none. -/
def ofCode? (raw : UInt8) : Option PacketType :=
  match raw.toNat with
  | 0 => some vendorSpecific
  | 1 => some invalid
  | 2 => some kernelDispatch
  | 3 => some barrierAnd
  | 4 => some agentDispatch
  | 5 => some barrierOr
  | _ => none

@[simp] theorem ofCode?_code (t : PacketType) : ofCode? t.code = some t := by
  cases t <;> rfl

end PacketType

instance : Enumerated PacketType where
  members := [.vendorSpecific, .invalid, .kernelDispatch, .barrierAnd, .agentDispatch, .barrierOr]
  name
    | .vendorSpecific => "VendorSpecific"
    | .invalid => "Invalid"
    | .kernelDispatch => "KernelDispatch"
    | .barrierAnd => "BarrierAnd"
    | .agentDispatch => "AgentDispatch"
    | .barrierOr => "BarrierOr"
  mem_members a := by cases a <;> decide
  name_injective a b := by cases a <;> cases b <;> decide

/-! ### Fence scopes -/

/-- How far a memory fence reaches when a packet is launched or completed. -/
inductive FenceScope where
  | none
  | agent
  | system
  deriving DecidableEq, Repr, Inhabited

namespace FenceScope

/-- The two bits that stand for a scope. -/
def code : FenceScope → UInt16
  | none => 0
  | agent => 1
  | system => 2

/-- The scope that two bits stand for; the reserved value 3 is the widest scope. -/
def ofCode (bits : UInt16) : FenceScope :=
  match bits.toNat with
  | 0 => none
  | 1 => agent
  | _ => system

@[simp] theorem ofCode_code (scope : FenceScope) : ofCode scope.code = scope := by
  cases scope <;> rfl

end FenceScope

instance : Enumerated FenceScope where
  members := [.none, .agent, .system]
  name
    | .none => "None"
    | .agent => "Agent"
    | .system => "System"
  mem_members a := by cases a <;> decide
  name_injective a b := by cases a <;> cases b <;> decide

/-! ### Headers -/

/-- The 16-bit header of a packet. -/
structure Header where
  /-- The bits as stored. -/
  bits : UInt16
  deriving DecidableEq, Repr, Inhabited

namespace Header

/-- Lowest bit of the packet type. -/
def typeShift : UInt16 := 0

/-- Number of bits of the packet type. -/
def typeWidth : UInt16 := 8

/-- Bit of the barrier flag. -/
def barrierShift : UInt16 := 8

/-- Lowest bit of the acquire fence scope. -/
def acquireShift : UInt16 := 9

/-- Lowest bit of the release fence scope. -/
def releaseShift : UInt16 := 11

/-- Number of bits of a fence scope. -/
def fenceWidth : UInt16 := 2

/-- A word with ones in its `width` lowest bits. -/
def mask (width : UInt16) : UInt16 :=
  (1 <<< width) - 1

/-- The `width` bits of a word from bit `shift` on. -/
def field (bits shift width : UInt16) : UInt16 :=
  (bits >>> shift) &&& mask width

/-- A word with its `width` bits from bit `shift` on replaced. -/
def setField (bits shift width value : UInt16) : UInt16 :=
  (bits &&& ~~~(mask width <<< shift)) ||| (value <<< shift)

/-- The header of a type, with fences of system scope on both sides and no barrier. -/
def ofType (type : PacketType) : Header :=
  ⟨(type.code.toUInt16 <<< typeShift) ||| (FenceScope.system.code <<< acquireShift) |||
    (FenceScope.system.code <<< releaseShift)⟩

/-- The header of a slot that is reserved but not published. -/
def unpublished : Header :=
  ⟨PacketType.invalid.code.toUInt16 <<< typeShift⟩

/-- A header with its barrier flag replaced. -/
def withBarrier (h : Header) (barrier : Bool) : Header :=
  ⟨setField h.bits barrierShift 1 barrier.toUInt16⟩

/-- A header with its acquire fence scope replaced. -/
def withAcquire (h : Header) (scope : FenceScope) : Header :=
  ⟨setField h.bits acquireShift fenceWidth scope.code⟩

/-- A header with its release fence scope replaced. -/
def withRelease (h : Header) (scope : FenceScope) : Header :=
  ⟨setField h.bits releaseShift fenceWidth scope.code⟩

/-- The number that the header holds in place of a packet type. -/
def typeCode (h : Header) : UInt8 :=
  (field h.bits typeShift typeWidth).toUInt8

/-- The packet type, unless the header holds a number that stands for none. -/
def type? (h : Header) : Option PacketType :=
  PacketType.ofCode? h.typeCode

/-- The slot of this header has not been published. -/
def isUnpublished (h : Header) : Bool :=
  h.typeCode == PacketType.invalid.code

/-- The barrier flag. -/
def barrier (h : Header) : Bool :=
  field h.bits barrierShift 1 == 1

/-- The acquire fence scope. -/
def acquire (h : Header) : FenceScope :=
  .ofCode (field h.bits acquireShift fenceWidth)

/-- The release fence scope. -/
def release (h : Header) : FenceScope :=
  .ofCode (field h.bits releaseShift fenceWidth)

/-- The header as shown in messages. -/
def describe (h : Header) : String :=
  let type := match h.type? with
    | some type => "Ok(" ++ Enumerated.name type ++ ")"
    | none => "Err(" ++ toString h.typeCode.toNat ++ ")"
  Text.record "PacketHeader"
    [("type", type), ("barrier", if h.barrier then "true" else "false"),
      ("acquire", Enumerated.name h.acquire), ("release", Enumerated.name h.release)] false

/-! ### The header word -/

/-- The header word: the header in the low half, the companion field in the high half. -/
def word (h : Header) (companion : UInt16) : UInt32 :=
  h.bits.toUInt32 ||| (companion.toUInt32 <<< 16)

/-- The header in the low half of a header word. -/
def ofWord (word : UInt32) : Header :=
  ⟨word.toUInt16⟩

end Header

/-- The companion field in the high half of a header word. -/
def companionOfWord (word : UInt32) : UInt16 :=
  (word >>> 16).toUInt16

/-! ### The companion field of a kernel dispatch -/

/-- Lowest bit of the number of dimensions in a dispatch's companion field. -/
def dimensionsShift : UInt16 := 0

/-- Number of bits of the number of dimensions. -/
def dimensionsWidth : UInt16 := 2

/-- The companion field of a dispatch over a grid of the given number of dimensions. -/
def setupOfDimensions (dimensions : UInt8) : UInt16 :=
  (dimensions.toUInt16 &&& Header.mask dimensionsWidth) <<< dimensionsShift

/-- The number of dimensions in a dispatch's companion field. -/
def dimensionsOfSetup (setup : UInt16) : UInt8 :=
  (Header.field setup dimensionsShift dimensionsWidth).toUInt8

end Accelerator
