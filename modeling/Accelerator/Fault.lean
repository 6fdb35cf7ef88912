import Accelerator.Dim3
import Accelerator.Handle
import Accelerator.Packet.Header
import Accelerator.Status
import Accelerator.Vocabulary

/-!
# Faults

Why an operation is refused. Each fault is a cause with the values that explain it; its kind, its
status code and its wording are functions of the cause, and stand here in one place.

## Main definitions

* `FaultKind`: the fifteen kinds of fault, each with a status.
* `Diagnosis`: a kind together with the text that explains it, and `Diagnosis.message`.
* `TopologyFault`, `ArgumentFault`, `AllocationFault`, `QueueFault`, `PacketFault`, `CodeFault`:
  causes by subject.
* `Fault`: any cause, and `Fault.diagnosis`.
-/

namespace Accelerator

/-! ### Kinds and their wording -/

/-- The kinds of fault. -/
inductive FaultKind where
  | notInitialized
  | invalidArgument
  | invalidAgent
  | invalidRegion
  | invalidSignal
  | invalidQueue
  | invalidExecutable
  | invalidQueueCreation
  | invalidAllocation
  | outOfResources
  | invalidPacket
  | incompatibleArguments
  | invalidCodeObject
  | frozenExecutable
  | invalidSymbolName
  deriving DecidableEq, Repr, Inhabited

instance : Enumerated FaultKind where
  members := [.notInitialized, .invalidArgument, .invalidAgent, .invalidRegion, .invalidSignal,
    .invalidQueue, .invalidExecutable, .invalidQueueCreation, .invalidAllocation,
    .outOfResources, .invalidPacket, .incompatibleArguments, .invalidCodeObject,
    .frozenExecutable, .invalidSymbolName]
  name
    | .notInitialized => "NotInitialized"
    | .invalidArgument => "InvalidArgument"
    | .invalidAgent => "InvalidAgent"
    | .invalidRegion => "InvalidRegion"
    | .invalidSignal => "InvalidSignal"
    | .invalidQueue => "InvalidQueue"
    | .invalidExecutable => "InvalidExecutable"
    | .invalidQueueCreation => "InvalidQueueCreation"
    | .invalidAllocation => "InvalidAllocation"
    | .outOfResources => "OutOfResources"
    | .invalidPacket => "InvalidPacket"
    | .incompatibleArguments => "IncompatibleArguments"
    | .invalidCodeObject => "InvalidCodeObject"
    | .frozenExecutable => "FrozenExecutable"
    | .invalidSymbolName => "InvalidSymbolName"
  mem_members a := by cases a <;> decide
  name_injective a b := by cases a <;> cases b <;> decide

/-- The status of a kind. -/
def FaultKind.status : FaultKind → Status
  | notInitialized => .notInitialized
  | invalidArgument => .invalidArgument
  | invalidAgent => .invalidAgent
  | invalidRegion => .invalidRegion
  | invalidSignal => .invalidSignal
  | invalidQueue => .invalidQueue
  | invalidExecutable => .invalidExecutable
  | invalidQueueCreation => .invalidQueueCreation
  | invalidAllocation => .invalidAllocation
  | outOfResources => .outOfResources
  | invalidPacket => .invalidPacketFormat
  | incompatibleArguments => .incompatibleArguments
  | invalidCodeObject => .invalidCodeObject
  | frozenExecutable => .frozenExecutable
  | invalidSymbolName => .invalidSymbolName

/-- A kind of fault together with the text that explains the particular one. -/
structure Diagnosis where
  kind : FaultKind
  detail : String
  deriving DecidableEq, Repr, Inhabited

namespace Diagnosis

/-- A fault about a handle, explained by the handle. -/
def ofHandle (kind : FaultKind) (h : Handle) : Diagnosis :=
  ⟨kind, h.hex⟩

/-- A fault about the packet at an index. -/
def ofPacket (index : UInt64) (reason : String) : Diagnosis :=
  ⟨.invalidPacket, toString index.toNat ++ ": " ++ reason⟩

/-- The diagnosis of a kind, with what a fault of that kind tells of: a handle, a packet index with
a reason, or a text alone. -/
def ofParts (kind : FaultKind) (number : UInt64) (text : String) : Diagnosis :=
  match kind with
  | .invalidAgent | .invalidRegion | .invalidSignal | .invalidQueue | .invalidExecutable =>
    ofHandle kind ⟨number⟩
  | .invalidPacket => ofPacket number text
  | _ => ⟨kind, text⟩

/-- The sentence that tells of a fault. -/
def message (d : Diagnosis) : String :=
  match d.kind with
  | .notInitialized => "runtime is not initialized"
  | .invalidArgument => "invalid argument: " ++ d.detail
  | .invalidAgent => "invalid agent handle: " ++ d.detail
  | .invalidRegion => "invalid region handle: " ++ d.detail
  | .invalidSignal => "invalid signal handle: " ++ d.detail
  | .invalidQueue => "invalid queue handle: " ++ d.detail
  | .invalidExecutable => "invalid executable handle: " ++ d.detail
  | .invalidQueueCreation => "queue creation rejected: " ++ d.detail
  | .invalidAllocation => "allocation rejected: " ++ d.detail
  | .outOfResources => "out of resources: " ++ d.detail
  | .invalidPacket => "invalid packet at index " ++ d.detail
  | .incompatibleArguments => "incompatible arguments: " ++ d.detail
  | .invalidCodeObject => "invalid code object: " ++ d.detail
  | .frozenExecutable => "executable is frozen"
  | .invalidSymbolName => "unknown symbol: " ++ d.detail

end Diagnosis

/-! ### Configurations -/

/-- What a configuration is refused for. -/
inductive TopologyFault where
  | duplicateAgent (agent : String)
  | queueSizes (agent : String) (least largest : UInt32)
  | duplicateRegion (region : String)
  | alignment (region : String) (alignment : UInt64)
  | zeroGranule (region : String)
  | unknownOwner (region owner : String)
  | zeroPoll
  deriving DecidableEq, Repr, Inhabited

/-- The sentence that tells what a configuration is refused for. -/
def TopologyFault.message : TopologyFault → String
  | duplicateAgent agent => "duplicate agent name " ++ agent
  | queueSizes agent least largest =>
    "agent " ++ agent ++ ": queue sizes " ++ toString least.toNat ++ "..=" ++
      toString largest.toNat ++ " must be powers of two with min <= max"
  | duplicateRegion region => "duplicate region name " ++ region
  | alignment region value =>
    "region " ++ region ++ ": alignment " ++ toString value.toNat ++ " is not a power of two"
  | zeroGranule region => "region " ++ region ++ ": granule is 0"
  | unknownOwner region owner => "region " ++ region ++ " lists unknown owner " ++ owner
  | zeroPoll => "processor_poll_us must be non-zero"

/-! ### Allocations -/

/-- Why a region does not hand out memory. -/
inductive AllocationFault where
  | zeroSize
  | notAllowed (region : String)
  | tooLarge (size largest : UInt64) (region : String)
  | granuleOverflow (size : UInt64)
  | regionFull (region : String) (inUse capacity : UInt64)
  | hostFull (size : UInt64)
  deriving DecidableEq, Repr, Inhabited

/-- The kind and wording of a refused allocation. -/
def AllocationFault.diagnosis : AllocationFault → Diagnosis
  | zeroSize => ⟨.invalidArgument, "allocation size is 0"⟩
  | notAllowed region => ⟨.invalidAllocation, "region " ++ region ++ " does not allow allocation"⟩
  | tooLarge size largest region =>
    ⟨.invalidAllocation, toString size.toNat ++ " bytes exceeds the " ++ toString largest.toNat ++
      " byte maximum of region " ++ region⟩
  | granuleOverflow size =>
    ⟨.invalidAllocation, toString size.toNat ++ " bytes overflows the granule"⟩
  | regionFull region inUse capacity =>
    ⟨.outOfResources, "region " ++ region ++ " has " ++ toString inUse.toNat ++ " of " ++
      toString capacity.toNat ++ " bytes in use"⟩
  | hostFull size =>
    ⟨.outOfResources, "host allocator failed for " ++ toString size.toNat ++ " bytes"⟩

/-! ### Arguments -/

/-- What is wrong with an argument of an operation. -/
inductive ArgumentFault where
  | topology (cause : TopologyFault)
  | loadOrder (order : MemoryOrder)
  | storeOrder (order : MemoryOrder)
  | queueType (raw : UInt32)
  | consumerCount (declared : UInt32) (given : Nat)
  | sizeNotPowerOfTwo (size : UInt32)
  | sizeOutOfRange (size least largest : UInt32) (agent : String)
  | nullDoorbell
  | noFeatures
  | reservation (count : UInt64) (size : UInt32)
  | dependencies (given : Nat)
  | ownConsumer (queue : UInt64)
  | freeNull
  | ownedByQueue (address : UInt64)
  | notAllocationStart (address : UInt64)
  | registerNull
  | registerEmpty
  | registerOverlap (address size : UInt64)
  | notRegistered (address size : UInt64)
  | copyNull
  | copyDestination (address size : UInt64)
  | copySource (address size : UInt64)
  | notAccessible (address size : UInt64)
  deriving DecidableEq, Repr, Inhabited

/-- The wording of a fault in an argument. -/
def ArgumentFault.detail : ArgumentFault → String
  | topology cause => cause.message
  | loadOrder order => Enumerated.name order ++ " is not a load ordering"
  | storeOrder order => Enumerated.name order ++ " is not a store ordering"
  | queueType raw => "unrecognized queue type " ++ toString raw.toNat
  | consumerCount declared given =>
    toString declared.toNat ++ " consumers declared, " ++ toString given ++ " given"
  | sizeNotPowerOfTwo size => "queue size " ++ toString size.toNat ++ " is not a power of two"
  | sizeOutOfRange size least largest agent =>
    "queue size " ++ toString size.toNat ++ " is outside " ++ toString least.toNat ++ "..=" ++
      toString largest.toNat ++ " for agent " ++ agent
  | nullDoorbell => "doorbell signal handle is 0"
  | noFeatures => "soft queue has no features"
  | reservation count size =>
    "cannot reserve " ++ toString count.toNat ++ " slots in a queue of " ++ toString size.toNat
  | dependencies given => "a barrier takes at most 5 dependencies, got " ++ toString given
  | ownConsumer queue => "queue " ++ toString queue.toNat ++ " is consumed by a command processor"
  | freeNull => "free of a null pointer"
  | ownedByQueue address => Word.hex address.toNat ++ " is owned by a queue"
  | notAllocationStart address =>
    Word.hex address.toNat ++ " is not the start of a live allocation"
  | registerNull => "register of a null pointer"
  | registerEmpty => "register of 0 bytes"
  | registerOverlap address size =>
    Word.hex address.toNat ++ " with " ++ toString size.toNat ++
      " bytes overlaps runtime-allocated memory"
  | notRegistered address size =>
    Word.hex address.toNat ++ " with " ++ toString size.toNat ++ " bytes is not registered"
  | copyNull => "copy with a null pointer"
  | copyDestination address size =>
    "destination " ++ Word.hex address.toNat ++ " is not accessible for " ++
      toString size.toNat ++ " bytes"
  | copySource address size =>
    "source " ++ Word.hex address.toNat ++ " is not accessible for " ++
      toString size.toNat ++ " bytes"
  | notAccessible address size =>
    Word.hex address.toNat ++ " is not accessible for " ++ toString size.toNat ++ " bytes"

/-! ### Queues, packets and code -/

/-- Why a queue is not created, its arguments being sound. -/
inductive QueueFault where
  | noQueues (agent : String)
  | unsupported (agent : String) (type : QueueType)
  | agentFull (agent : String) (limit : UInt32)
  | ringMemory (packets : UInt32)
  | noThread (reason : String)
  | softQueuesFull (limit : UInt32)
  | ringSpace (region : String) (packets : UInt32) (cause : AllocationFault)
  deriving DecidableEq, Repr, Inhabited

/-- The kind and wording of a refused queue. -/
def QueueFault.diagnosis : QueueFault → Diagnosis
  | noQueues agent => ⟨.invalidQueueCreation, "agent " ++ agent ++ " does not host queues"⟩
  | unsupported agent type =>
    ⟨.invalidQueueCreation, "agent " ++ agent ++ " cannot host " ++ type.title ++ " queues"⟩
  | agentFull agent limit =>
    ⟨.outOfResources, "agent " ++ agent ++ " already has " ++ toString limit.toNat ++ " queues"⟩
  | ringMemory packets => ⟨.outOfResources, "ring of " ++ toString packets.toNat ++ " packets"⟩
  | noThread reason => ⟨.outOfResources, "command processor thread: " ++ reason⟩
  | softQueuesFull limit =>
    ⟨.outOfResources, toString limit.toNat ++ " soft queues are already live"⟩
  | ringSpace region packets cause =>
    ⟨.outOfResources, "region " ++ region ++ " cannot hold a " ++ toString packets.toNat ++
      " packet ring: " ++ cause.diagnosis.message⟩

/-- Why a command processor does not execute a packet. -/
inductive PacketFault where
  | unsupportedType (type : PacketType)
  | unknownType (raw : UInt8)
  | dimensions (count : UInt8)
  | unknownKernel (object : UInt64)
  | workgroupLimits (workgroup : Dim3 UInt16)
  | gridLimits (grid : Dim3 UInt32)
  | kernargMisaligned (address : UInt64)
  | kernargInaccessible (address : UInt64) (size : UInt32)
  | kernelPanicked (kernel : String)
  deriving DecidableEq, Repr, Inhabited

/-- The wording of a packet fault. -/
def PacketFault.detail : PacketFault → String
  | unsupportedType type =>
    Enumerated.name type ++ " packets are not supported by this queue"
  | unknownType raw => "unknown packet type " ++ toString raw.toNat
  | dimensions count => toString count.toNat ++ " grid dimensions"
  | unknownKernel object => "unknown kernel object " ++ Word.hex object.toNat
  | workgroupLimits workgroup =>
    "workgroup " ++ Text.listed (workgroup.toList.map fun d => toString d.toNat) ++
      " exceeds the agent limits"
  | gridLimits grid =>
    "grid " ++ Text.listed (grid.toList.map fun d => toString d.toNat) ++
      " exceeds the agent limits"
  | kernargMisaligned address => "kernarg address " ++ Word.hex address.toNat ++ " is misaligned"
  | kernargInaccessible address size =>
    "kernarg segment " ++ Word.hex address.toNat ++ "+" ++ toString size.toNat ++
      " is not accessible"
  | kernelPanicked kernel => "kernel " ++ kernel ++ " panicked"

/-- What is wrong with a code object, or with loading it. -/
inductive CodeFault where
  | kernargAlignment (kernel : String) (alignment : UInt32)
  | duplicateKernel (kernel : String)
  | alreadyLoaded (kernel : String) (agent : Handle)
  deriving DecidableEq, Repr, Inhabited

/-- The wording of a fault in a code object. -/
def CodeFault.detail : CodeFault → String
  | kernargAlignment kernel alignment =>
    "kernel " ++ kernel ++ " has kernarg alignment " ++ toString alignment.toNat
  | duplicateKernel kernel => "duplicate kernel " ++ kernel
  | alreadyLoaded kernel agent =>
    "kernel " ++ kernel ++ " is already loaded for agent " ++ agent.hex

/-! ### All faults -/

/-- Why an operation is refused. -/
inductive Fault where
  | notInitialized
  | invalidAgent (h : Handle)
  | invalidRegion (h : Handle)
  | invalidSignal (h : Handle)
  | invalidQueue (h : Handle)
  | invalidExecutable (h : Handle)
  | argument (cause : ArgumentFault)
  | allocation (cause : AllocationFault)
  | registrationOverflow (address : UInt64)
  | queue (cause : QueueFault)
  | packet (index : UInt64) (cause : PacketFault)
  | incompatibleIsa (isa agent agentIsa : String)
  | code (cause : CodeFault)
  | frozenExecutable
  | unknownSymbol (name : String)
  deriving DecidableEq, Repr, Inhabited

namespace Fault

/-- The kind and wording of a fault. -/
def diagnosis : Fault → Diagnosis
  | notInitialized => ⟨.notInitialized, ""⟩
  | invalidAgent h => .ofHandle .invalidAgent h
  | invalidRegion h => .ofHandle .invalidRegion h
  | invalidSignal h => .ofHandle .invalidSignal h
  | invalidQueue h => .ofHandle .invalidQueue h
  | invalidExecutable h => .ofHandle .invalidExecutable h
  | argument cause => ⟨.invalidArgument, cause.detail⟩
  | allocation cause => cause.diagnosis
  | registrationOverflow address =>
    ⟨.outOfResources, "registration count of " ++ Word.hex address.toNat ++ " overflowed"⟩
  | queue cause => cause.diagnosis
  | packet index cause => .ofPacket index cause.detail
  | incompatibleIsa isa agent agentIsa =>
    ⟨.incompatibleArguments, "code object ISA " ++ isa ++ " does not match agent " ++ agent ++
      " ISA " ++ agentIsa⟩
  | code cause => ⟨.invalidCodeObject, cause.detail⟩
  | frozenExecutable => ⟨.frozenExecutable, ""⟩
  | unknownSymbol name => ⟨.invalidSymbolName, name⟩

/-- The kind of a fault. -/
def kind (f : Fault) : FaultKind :=
  f.diagnosis.kind

end Fault

end Accelerator
