import Accelerator.Kernel.Program

/-!
# Launching kernels

A launch runs a kernel over a grid. The grid is cut into workgroups, from the origin on; the
workgroups at the far edges may be partial. Within a workgroup the work-items run one after
another with x fastest, and share a group segment that holds zeros at first. Each work-item has a
private segment of zeros.

## Workers

The library hands the workgroups of a launch to a pool of workers, which take them up in any order
and run several at once. Here `runGroups` takes an order as an argument, and `run` is the one where
workgroups are run in the order of their numbers. In either case a workgroup is run as a whole
before the next begins. Workgroups whose accesses to global memory conflict with each other may so
do other things in the library than in any order here; those that do not conflict cannot tell.

The entry of a kernel is a program for each work-item. What is said of closures at `Program` goes
for it too: state that a closure captures is no part of a kernel here, and all that passes from one
work-item to another passes through memory.

## Main definitions

* `Kernel`: a program with the segments that it needs.
* `Launch`: a kernel with its arguments, workgroup size and grid.
* `Launch.groups`, `Launch.items`: the workgroups of a launch, and the items of one.
* `Launch.runGroup`, `Launch.runGroups`, `Launch.run`: running one workgroup, several in a given
  order, and all in the order of their numbers.
-/

namespace Accelerator

/-- A program that is run once for every work-item. -/
structure Kernel where
  name : String
  kernargSize : UInt32
  kernargAlignment : UInt32
  groupSize : UInt32
  privateSize : UInt32
  entry : WorkItem → Program Unit

namespace Kernel

/-- A kernel without arguments and segments. -/
def ofEntry (name : String) (entry : WorkItem → Program Unit) : Kernel :=
  ⟨name, 0, 1, 0, 0, entry⟩

instance : Inhabited Kernel := ⟨ofEntry "" fun _ => .done ()⟩

/-- The kernel with an argument segment. -/
def withKernarg (k : Kernel) (size alignment : UInt32) : Kernel :=
  { k with kernargSize := size, kernargAlignment := alignment }

/-- The kernel with a group segment. -/
def withGroupSegment (k : Kernel) (size : UInt32) : Kernel :=
  { k with groupSize := size }

/-- The kernel with a private segment. -/
def withPrivateSegment (k : Kernel) (size : UInt32) : Kernel :=
  { k with privateSize := size }

/-- The kernel as shown in messages. -/
def describe (k : Kernel) : String :=
  Text.record "KernelDescriptor"
    [("name", Text.quoted k.name), ("kernarg_segment_size", toString k.kernargSize.toNat),
      ("kernarg_segment_alignment", toString k.kernargAlignment.toNat),
      ("group_segment_size", toString k.groupSize.toNat),
      ("private_segment_size", toString k.privateSize.toNat)] true

end Kernel

/-- A kernel with what one dispatch gives it. -/
structure Launch where
  kernel : Kernel
  kernarg : List UInt8
  workgroup : Dim3 UInt16
  grid : Dim3 UInt32
  groupBytes : Nat
  privateBytes : Nat

/-- What a launch leaves behind: global memory, the reports made, last first, and whether some
work-item ended the dispatch. -/
structure LaunchState where
  memory : Memory
  reports : List Report
  panicked : Bool

namespace Launch

/-! ### Workgroups and work-items -/

/-- The number of workgroups in each dimension, the partial ones included. -/
def groups (l : Launch) : Dim3 Nat :=
  l.grid.zipWith (fun g w => (g.toNat + w.toNat - 1) / w.toNat) l.workgroup

/-- The number of workgroups. -/
def groupCount (l : Launch) : Nat :=
  l.groups.volume

/-- The position of a workgroup, given its number when workgroups are counted with x fastest. -/
def groupPosition (l : Launch) (flat : Nat) : Dim3 Nat :=
  ⟨flat % l.groups.x, flat / l.groups.x % l.groups.y, flat / (l.groups.x * l.groups.y)⟩

/-- The places inside a workgroup, x fastest. -/
def places (l : Launch) : List (Dim3 Nat) :=
  (List.range l.workgroup.z.toNat).flatMap fun z =>
    (List.range l.workgroup.y.toNat).flatMap fun y =>
      (List.range l.workgroup.x.toNat).map fun x => ⟨x, y, z⟩

/-- The work-item at a place of a workgroup, unless the place lies outside the grid. -/
def item? (l : Launch) (group place : Dim3 Nat) : Option WorkItem :=
  let globalId := (group.zipWith (fun g w => g * w.toNat) l.workgroup).zipWith (· + ·) place
  if (globalId.zipWith (fun id g => decide (g.toNat ≤ id)) l.grid).any id then none
  else some {
    globalId := globalId.map .ofNat
    localId := place.map .ofNat
    groupId := group.map .ofNat
    workgroupSize := l.workgroup
    gridSize := l.grid
    kernarg := l.kernarg
    groupBytes := l.groupBytes
    privateBytes := l.privateBytes }

/-- The work-items of a workgroup in the order in which they run. -/
def items (l : Launch) (flat : Nat) : List WorkItem :=
  l.places.filterMap (l.item? (l.groupPosition flat))

/-! ### Running -/

/-- Runs one work-item, with a private segment of zeros, unless the dispatch has ended. -/
def runItem (l : Launch) (state : LaunchState × ScratchMemory) (item : WorkItem) :
    LaunchState × ScratchMemory :=
  if state.1.panicked then state
  else
    let (value, lane) := (l.kernel.entry item).run
      ⟨state.1.memory, state.2, .zero l.privateBytes, state.1.reports⟩
    (⟨lane.memory, lane.reports, value.isNone⟩, lane.group)

/-- Runs the workgroup of a given number, with a group segment of zeros. -/
def runGroup (l : Launch) (state : LaunchState) (flat : Nat) : LaunchState :=
  ((l.items flat).foldl l.runItem (state, .zero l.groupBytes)).1

/-- Runs workgroups in a given order. -/
def runGroups (l : Launch) (order : List Nat) (state : LaunchState) : LaunchState :=
  order.foldl l.runGroup state

/-- Runs all workgroups in the order of their numbers. -/
def run (l : Launch) (memory : Memory) (reports : List Report) : LaunchState :=
  l.runGroups (List.range l.groupCount) ⟨memory, reports, false⟩

end Launch

end Accelerator
