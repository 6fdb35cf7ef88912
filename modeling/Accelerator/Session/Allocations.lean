import Accelerator.Session.State

/-!
# Memory of a session

The actions on the memory map of a session. They keep account of the bytes in use of each region:
what is handed out is added, what comes back is taken off.

## Main definitions

* `Session.allocateFrom`, `Session.releaseAllocation`: handing out and taking back, with account.
* `Session.allocate`, `Session.free`, `Session.assign`: allocations of the application.
* `Session.register`, `Session.deregister`: memory of the application's own.
* `Session.readMemory`, `Session.writeMemory`, `Session.copyMemory`: accesses.
* `Session.hostBlock`: memory that the application takes from the host.
-/

namespace Accelerator

namespace Session

open Accelerator.Action

/-! ### Keeping account -/

/-- A block from a region, by its address and rounded size. -/
def allocateFrom (s : Session) (r : Region) (size alignment : UInt64) (usage : AllocationUse) :
    Except AllocationFault (UInt64 × UInt64 × Session) := do
  let (start, rounded, memory) ← s.memory.allocate r size alignment usage
  return (start, rounded, { s with memory }.modifyRegion r.handle (·.reserve rounded))

/-- Takes the bytes of an allocation off its region's account. -/
def releaseAllocation (s : Session) (a : Allocation) : Session :=
  s.modifyRegion a.region (·.release a.size)

/-- Takes back the block that starts at an address. -/
def freeBlock (address : UInt64) (usage : AllocationUse) : Action Unit := do
  let (a, memory) ← (← session).memory.free address usage
  change fun s => { s with memory }.releaseAllocation a

/-! ### Allocations -/

/-- A block from a region, by its address and rounded size. -/
def allocate (h : Handle) (size : UInt64) : Action (UInt64 × UInt64) := do
  let r ← region h
  match (← session).allocateFrom r size r.info.alignment .application with
  | .error cause => refuse (.allocation cause)
  | .ok (start, rounded, s) =>
    change fun _ => s
    return (start, rounded)

/-- Takes back an allocation of the application. -/
def free (address : UInt64) : Action Unit := do
  ensureOpen
  freeBlock address .application

/-- The agents see each other's accesses to a region at once. -/
def isFineGrained (s : Session) (h : Handle) : Bool :=
  (s.regions.get? h).any (·.isFineGrained)

/-- Gives an allocation to an agent. -/
def assign (address : UInt64) (h : Handle) (access : AccessPermission) : Action Unit := do
  let a ← agent h
  let s ← session
  let memory ← s.memory.assign s.isFineGrained address a.handle access
  change fun s => { s with memory }

/-- The region of the allocation that contains an address. -/
def regionOf (address : UInt64) : Action (Option Handle) := do
  ensureOpen
  return (← session).memory.regionOf? address

/-- The allocation that starts at an address. -/
def allocationInfo (address : UInt64) : Action (Option Allocation) := do
  ensureOpen
  return (← session).memory.allocationAt? address

/-- The number of allocations, the rings of soft queues included. -/
def liveAllocations (s : Session) : Nat :=
  s.memory.allocations.length

/-! ### The application's own memory -/

/-- A zeroed block that the application takes from the host for itself. -/
def hostBlock? (s : Session) (size : Nat) : Option (UInt64 × Session) :=
  (s.memory.host.allocate? size 1).map fun (start, host) =>
    (start, { s with memory := { s.memory with host } })

/-- Registers a range once more. -/
def register (address size : UInt64) : Action Unit := do
  ensureOpen
  let memory ← (← session).memory.register address size
  change fun s => { s with memory }

/-- Takes back one registration of a range. -/
def deregister (address size : UInt64) : Action Unit := do
  ensureOpen
  let memory ← (← session).memory.deregister address size
  change fun s => { s with memory }

/-! ### Accesses -/

/-- The range may be accessed. -/
def isAccessible (address size : UInt64) : Action Bool := do
  ensureOpen
  return (← session).memory.isAccessible address size

/-- The bytes of a range. -/
def readMemory (address size : UInt64) : Action (List UInt8) := do
  ensureOpen
  demand ((← session).memory.readBytes? address size) (.argument (.notAccessible address size))

/-- Changes the bytes of a range. -/
def writeMemory (address : UInt64) (bs : List UInt8) : Action Unit := do
  ensureOpen
  let memory ← demand ((← session).memory.writeBytes? address bs)
    (.argument (.notAccessible address (.ofNat bs.length)))
  change fun s => { s with memory }

/-- Copies a range to another. -/
def copyMemory (target source size : UInt64) : Action Unit := do
  ensureOpen
  let memory ← (← session).memory.copy target source size
  change fun s => { s with memory }

end Session

end Accelerator
