import Accelerator.Flags
import Accelerator.Handle
import Accelerator.Vocabulary

/-!
# Regions

A region is a pool of memory with fixed properties. Sizes handed out by it are rounded up to its
granule, and the sum of what is handed out at one time stays within its capacity.

## Main definitions

* `RegionInfo`: the fixed attributes of a region, and `RegionInfo.roundedSize`.
* `Region`: a region with its owners and the bytes in use.
* `Region.canReserve`, `Region.reserve`, `Region.release`: keeping account of the bytes in use.
-/

namespace Accelerator

/-- The fixed attributes of a region. -/
structure RegionInfo where
  name : String
  segment : Segment
  flags : GlobalFlags
  allocAllowed : Bool
  /-- The largest single allocation in bytes. -/
  maxAllocation : UInt64
  /-- Sizes are rounded up to a multiple of this. -/
  granule : UInt64
  /-- Allocations start at multiples of this power of two. -/
  alignment : UInt64
  /-- The bytes that can be handed out at one time. -/
  capacity : UInt64
  deriving DecidableEq, Repr, Inhabited

/-- A size rounded up to the granule (a granule of 0 counts as 1), or nothing when the sum on the
way there does not fit 64 bits. -/
def RegionInfo.roundedSize (info : RegionInfo) (size : UInt64) : Option UInt64 :=
  let granule := max info.granule 1
  (Word.add? size (granule - 1)).map fun sum => sum / granule * granule

/-- A region of an open runtime. -/
structure Region where
  handle : Handle
  info : RegionInfo
  /-- The agents attached to the region. -/
  owners : List Handle
  inUse : UInt64
  deriving DecidableEq, Repr, Inhabited

namespace Region

/-- A region with nothing in use. -/
def ofInfo (h : Handle) (info : RegionInfo) (owners : List Handle) : Region :=
  ⟨h, info, owners, 0⟩

/-- The agents see each other's accesses to the region at once. -/
def isFineGrained (r : Region) : Bool :=
  r.info.flags.contains .fineGrained

/-- The region can hand out that many more bytes. -/
def canReserve (r : Region) (size : UInt64) : Bool :=
  match Word.add? r.inUse size with
  | none => false
  | some total => total ≤ r.info.capacity

/-- The region with more bytes in use. -/
def reserve (r : Region) (size : UInt64) : Region :=
  { r with inUse := r.inUse + size }

/-- The region with fewer bytes in use. -/
def release (r : Region) (size : UInt64) : Region :=
  { r with inUse := r.inUse - size }

end Region

end Accelerator
