import Accelerator.Executable
import Accelerator.Packet.Body
import Accelerator.Topology.Agent

/-!
# Kernel dispatch packets

What a kernel dispatch packet asks for is checked before anything is run: the kernel must exist,
workgroup and grid must stay within the limits of the agent, and the arguments must be readable.
A grid or a workgroup with an empty dimension asks for nothing, and is not checked further.

## Main definitions

* `DispatchPlan`: what a packet comes to.
* `KernelDispatch.plan`: the checks in order.

## Implementation notes

The products of the sizes are formed in words of 32 bits for a workgroup and of 64 bits for a
grid. A product that does not fit its word is no fault of the packet: `DispatchPlan.overflow`.
-/

namespace Accelerator

/-- What a kernel dispatch packet comes to. -/
inductive DispatchPlan where
  /-- There is nothing to run. -/
  | empty
  /-- The packet is refused. -/
  | refused (cause : PacketFault)
  /-- A product of sizes does not fit its word. -/
  | overflow
  /-- There is a kernel to run. -/
  | launch (l : Launch)

namespace KernelDispatch

/-- A grid or workgroup without work-items. -/
def isEmpty (p : KernelDispatch) : Bool :=
  p.workgroup.any (· == 0) || p.grid.any (· == 0)

/-- The workgroup is larger than an agent allows; nothing if its size does not fit 32 bits. -/
def exceedsWorkgroup? (p : KernelDispatch) (info : AgentInfo) : Option Bool :=
  let volume := (p.workgroup.map UInt16.toNat).volume
  if UInt32.size ≤ volume then none
  else some (info.workgroupMaxSize.toNat < volume ||
    (p.workgroup.zipWith (fun d limit => decide (limit < d)) info.workgroupMaxDim).any id)

/-- The grid is larger than an agent allows; nothing if its size does not fit 64 bits. -/
def exceedsGrid? (p : KernelDispatch) (info : AgentInfo) : Option Bool :=
  let volume := (p.grid.map UInt32.toNat).volume
  if UInt64.size ≤ volume then none
  else some (info.gridMaxSize.toNat < volume ||
    (p.grid.zipWith (fun d limit => decide (limit < d)) info.gridMaxDim).any id)

/-- The bytes of a kernel's arguments; a kernel without arguments reads none. -/
def readKernarg (p : KernelDispatch) (k : Kernel) (memory : Memory) :
    Except PacketFault (List UInt8) :=
  if k.kernargSize = 0 then .ok []
  else if p.kernargAddress.toNat % k.kernargAlignment.toNat ≠ 0 then
    .error (.kernargMisaligned p.kernargAddress)
  else match memory.readBytes? p.kernargAddress k.kernargSize.toUInt64 with
    | some bs => .ok bs
    | none => .error (.kernargInaccessible p.kernargAddress k.kernargSize)

/-- The launch of a kernel that a packet asks for. Each segment is as large as the packet or the
kernel wants it, whichever is more. -/
def launchOf (p : KernelDispatch) (k : Kernel) (kernarg : List UInt8) : Launch where
  kernel := k
  kernarg
  workgroup := p.workgroup
  grid := p.grid
  groupBytes := (max p.groupSegmentSize k.groupSize).toNat
  privateBytes := (max p.privateSegmentSize k.privateSize).toNat

/-- What a packet comes to on an agent, given the companion field it was published with. -/
def plan (p : KernelDispatch) (setup : UInt16) (info : AgentInfo) (kernels : KernelTable)
    (memory : Memory) : DispatchPlan :=
  if p.isEmpty then .empty
  else if dimensionsOfSetup setup = 0 then .refused (.dimensions (dimensionsOfSetup setup))
  else match kernels.find? p.kernelObject with
    | none => .refused (.unknownKernel p.kernelObject)
    | some k =>
      match p.exceedsWorkgroup? info with
      | none => .overflow
      | some true => .refused (.workgroupLimits p.workgroup)
      | some false =>
        match p.exceedsGrid? info with
        | none => .overflow
        | some true => .refused (.gridLimits p.grid)
        | some false =>
          match p.readKernarg k memory with
          | .error cause => .refused cause
          | .ok kernarg => .launch (p.launchOf k kernarg)

end KernelDispatch

end Accelerator
