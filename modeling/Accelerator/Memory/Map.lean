import Accelerator.Fault
import Accelerator.Memory.Contents
import Accelerator.Memory.Host
import Accelerator.Topology.Region

/-!
# The memory map

What of the address space agents and the host may touch. A region hands out *allocations*; the
application can *register* memory of its own, any range as often as it likes. An access is allowed
if its whole range lies in one allocation or in one registered range, and no byte of it belongs to
the ring of a soft queue, which is reached through the queue alone.

## Main definitions

* `Allocation`, `Memory`: a handed-out block, and the map with the contents of memory.
* `Memory.allocate`, `Memory.free`: handing out blocks and taking them back.
* `Memory.register`, `Memory.deregister`: counting registrations of a range.
* `Memory.isAccessible`: the access rule.
* `Memory.readBytes?`, `Memory.writeBytes?`, `Memory.copy`, `Memory.fetchAdd?`: accesses.

## Implementation notes

Allocations are kept in order of their addresses and never overlap. So the allocation that could
contain a range is the last that starts at or before it, and the allocations that share bytes with
a range stand next to each other: they are found from the end of the range backwards, until the
first that ends before the range.
-/

namespace Accelerator

/-- What an allocation is for. -/
inductive AllocationUse where
  /-- Data of the application. -/
  | application
  /-- The ring of a soft queue. -/
  | queueRing
  deriving DecidableEq, Repr, Inhabited

/-- A block that a region has handed out. -/
structure Allocation where
  size : UInt64
  region : Handle
  /-- The agent that owns the block. -/
  owner : Option Handle
  access : AccessPermission
  usage : AllocationUse
  deriving DecidableEq, Repr, Inhabited

/-- The memory map and the contents of memory. -/
structure Memory where
  contents : Contents
  host : Host
  /-- Live allocations by their first address, in ascending order. -/
  allocations : List (UInt64 × Allocation)
  /-- Registered ranges by address and size, each with the count of its registrations. -/
  registrations : List ((UInt64 × UInt64) × UInt32)

/-- The access range lies within the range of `size` bytes from `start`; a range that passes the
last address lies within none and contains none. -/
def rangeWithin (start size address len : UInt64) : Bool :=
  match Word.add? start size, Word.add? address len with
  | some limit, some accessLimit => start ≤ address && accessLimit ≤ limit
  | _, _ => false

namespace Memory

/-- The map before anything has been handed out. -/
def empty : Memory := ⟨.zero, .fresh, [], []⟩

instance : Inhabited Memory := ⟨empty⟩

/-! ### Finding allocations -/

/-- The allocation that starts at an address. -/
def allocationAt? (m : Memory) (address : UInt64) : Option Allocation :=
  m.allocations.lookup address

/-- The last allocation that starts at or before an address. -/
def preceding? (m : Memory) (address : UInt64) : Option (UInt64 × Allocation) :=
  (m.allocations.takeWhile fun entry => entry.1 ≤ address).getLast?

/-- The allocations that share a byte with a range, the last of them first. -/
def overlapping (m : Memory) (address len : UInt64) : List (UInt64 × Allocation) :=
  let limit := Word.addClamped address len
  (m.allocations.takeWhile fun entry => entry.1 < limit).reverse.takeWhile fun entry =>
    address < Word.addClamped entry.1 entry.2.size

/-- Puts an allocation among the others at the place of its address. -/
def insertAllocation (start : UInt64) (a : Allocation) :
    List (UInt64 × Allocation) → List (UInt64 × Allocation)
  | [] => [(start, a)]
  | entry :: rest =>
    if start < entry.1 then (start, a) :: entry :: rest
    else entry :: insertAllocation start a rest

/-! ### Handing out blocks -/

/-- The rounded size of a block that a region may hand out: the first check that fails is told. -/
def plan (r : Region) (size : UInt64) : Except AllocationFault UInt64 :=
  if size = 0 then .error .zeroSize
  else if ¬ r.info.allocAllowed then .error (.notAllowed r.info.name)
  else if r.info.maxAllocation < size then
    .error (.tooLarge size r.info.maxAllocation r.info.name)
  else match r.info.roundedSize size with
    | none => .error (.granuleOverflow size)
    | some rounded =>
      if r.canReserve rounded then .ok rounded
      else .error (.regionFull r.info.name r.inUse r.info.capacity)

/-- Takes a zeroed block for a region from the host. The block is aligned to the region's
alignment at least and belongs to the region's first owner. -/
def allocate (m : Memory) (r : Region) (size alignment : UInt64) (usage : AllocationUse) :
    Except AllocationFault (UInt64 × UInt64 × Memory) := do
  let rounded ← plan r size
  match m.host.allocate? rounded.toNat (max alignment r.info.alignment).toNat with
  | none => .error (.hostFull rounded)
  | some (start, host) =>
    .ok (start, rounded,
      { m with
        contents := m.contents.clear start rounded
        host
        allocations := insertAllocation start ⟨rounded, r.handle, r.owners.head?, .readWrite, usage⟩
          m.allocations })

/-- Takes back the block that starts at an address, if it was handed out for the given use. -/
def free (m : Memory) (address : UInt64) (usage : AllocationUse) :
    Except Fault (Allocation × Memory) :=
  if address = 0 then .error (.argument .freeNull)
  else match m.allocationAt? address with
    | none => .error (.argument (.notAllocationStart address))
    | some a =>
      if a.usage = usage then
        .ok (a, { m with allocations := m.allocations.filter fun entry => entry.1 ≠ address })
      else .error (.argument (.ownedByQueue address))

/-- Gives an allocation to an agent. Fine-grained memory belongs to all agents alike and stays as
it is; `fineGrained` tells which regions are. -/
def assign (m : Memory) (fineGrained : Handle → Bool) (address : UInt64) (agent : Handle)
    (access : AccessPermission) : Except Fault Memory :=
  match m.allocationAt? address with
  | none => .error (.argument (.notAllocationStart address))
  | some a =>
    if fineGrained a.region then .ok m
    else .ok { m with
      allocations := m.allocations.map fun entry =>
        if entry.1 = address then (address, { a with owner := some agent, access }) else entry }

/-! ### Registered ranges -/

/-- How often a range is registered. -/
def registrationCount (m : Memory) (address size : UInt64) : UInt32 :=
  (m.registrations.lookup (address, size)).getD 0

/-- Sets how often a range is registered; a count of 0 forgets it. -/
def setRegistrationCount (m : Memory) (address size : UInt64) (count : UInt32) : Memory :=
  let others := m.registrations.filter fun entry => entry.1 ≠ (address, size)
  { m with registrations := if count = 0 then others else ((address, size), count) :: others }

/-- Registers a range once more. Ranges that share a byte with an allocation are refused. -/
def register (m : Memory) (address size : UInt64) : Except Fault Memory :=
  if address = 0 then .error (.argument .registerNull)
  else if size = 0 then .error (.argument .registerEmpty)
  else if ¬ (m.overlapping address size).isEmpty then
    .error (.argument (.registerOverlap address size))
  else
    let count := m.registrationCount address size
    if count.toNat + 1 < UInt32.size then .ok (m.setRegistrationCount address size (count + 1))
    else .error (.registrationOverflow address)

/-- Takes back one registration of exactly this range. -/
def deregister (m : Memory) (address size : UInt64) : Except Fault Memory :=
  let count := m.registrationCount address size
  if count = 0 then .error (.argument (.notRegistered address size))
  else .ok (m.setRegistrationCount address size (count - 1))

/-! ### Accesses -/

/-- The range lies within a registered one. -/
def isRegistered (m : Memory) (address len : UInt64) : Bool :=
  m.registrations.any fun entry =>
    entry.1.1 ≤ address && rangeWithin entry.1.1 entry.1.2 address len

/-- The range may be accessed. -/
def isAccessible (m : Memory) (address len : UInt64) : Bool :=
  if address = 0 then false
  else if (m.overlapping address len).any fun entry => entry.2.usage == .queueRing then false
  else
    (match m.preceding? address with
      | some (start, a) => rangeWithin start a.size address len
      | none => false) || m.isRegistered address len

/-- The bytes of a range that may be accessed. -/
def readBytes? (m : Memory) (address len : UInt64) : Option (List UInt8) :=
  if m.isAccessible address len then some (m.contents.read address len.toNat) else none

/-- Changes the bytes of a range, whether it may be accessed or not. -/
def overwrite (m : Memory) (address : UInt64) (bs : List UInt8) : Memory :=
  { m with contents := m.contents.write address bs }

/-- Changes the bytes of a range that may be accessed. -/
def writeBytes? (m : Memory) (address : UInt64) (bs : List UInt8) : Option Memory :=
  if m.isAccessible address (.ofNat bs.length) then some (m.overwrite address bs) else none

/-- Copies a range to another; both may be accessed and may overlap. -/
def copy (m : Memory) (target source size : UInt64) : Except Fault Memory :=
  if target = 0 ∨ source = 0 then .error (.argument .copyNull)
  else if size = 0 then .ok m
  else if ¬ m.isAccessible target size then .error (.argument (.copyDestination target size))
  else if ¬ m.isAccessible source size then .error (.argument (.copySource source size))
  else .ok (m.overwrite target (m.contents.read source size.toNat))

/-- A word of `width` bytes that may be accessed, at a multiple of its width. -/
def alignedWord? (m : Memory) (width : Nat) (address : UInt64) : Option Nat :=
  if address.toNat % width ≠ 0 then none
  else (m.readBytes? address (.ofNat width)).map Word.ofBytes

/-- Adds to a word of `width` bytes at a multiple of its width, and shows what it was. -/
def fetchAdd? (m : Memory) (width : Nat) (address : UInt64) (amount : Nat) :
    Option (Nat × Memory) :=
  match m.alignedWord? width address with
  | some previous => some (previous, m.overwrite address (Word.bytes width (previous + amount)))
  | none => none

/-- The region of the allocation that contains an address. -/
def regionOf? (m : Memory) (address : UInt64) : Option Handle :=
  match m.preceding? address with
  | some (start, a) => if rangeWithin start a.size address 1 then some a.region else none
  | none => none

/-- The map without allocations and registrations. -/
def releaseAll (m : Memory) : Memory :=
  { m with allocations := [], registrations := [] }

end Memory

end Accelerator
