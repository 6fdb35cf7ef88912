import Accelerator.Dim3
import Accelerator.Kernarg
import Accelerator.Memory.Map

/-!
# Kernel programs

A kernel is a program that is run once for every work-item. A program is a tree: each node is one
access to memory, and the branches below it are what is done next, depending on what the access
showed. So the accesses that a program makes can be read off it, whatever it computes in between.

A work-item sees three memories: the global memory of the runtime, which refuses accesses outside
the memory map; the group segment, which it shares with the other items of its workgroup; and a
private segment of its own. It can also report to the application.

## What a kernel can see

A program is a function of its work-item and of what its accesses return, and of nothing else. In
the library a kernel is a shared closure, and a closure may capture state of the application: a
counter, a lock, a list that it appends to. Kernels that read such state, or that have an effect on
it other than a report, are outside the model. A work-item of such a kernel could do one thing in
one run and another in the next with the same packet and the same memory, and nothing that is said
here of the result of a launch would follow.

What such closures are mostly used for is to tell the application something. That is kept, as
`Report`: a report cannot be read back by a work-item, so it changes nothing about what is run.

## Main definitions

* `WorkItem`: the position of a work-item and its arguments.
* `Report`: what a work-item tells the application.
* `Program`: the tree of accesses, and `Program.bind` for what comes after it.
* `Lane`, `Program.run`: the memories that a work-item sees, and what a program does to them.
-/

namespace Accelerator

/-! ### Work-items -/

/-- The position of a work-item in its grid, and what it is given. -/
structure WorkItem where
  globalId : Dim3 UInt32
  localId : Dim3 UInt32
  groupId : Dim3 UInt32
  workgroupSize : Dim3 UInt16
  gridSize : Dim3 UInt32
  /-- The bytes of the kernel's arguments, as they were when the dispatch began. -/
  kernarg : List UInt8
  /-- Bytes of the group segment. -/
  groupBytes : Nat
  /-- Bytes of the private segment. -/
  privateBytes : Nat
  deriving DecidableEq, Repr, Inhabited

/-- The number of a work-item when the grid is counted with x fastest. -/
def WorkItem.flatGlobalId (item : WorkItem) : UInt64 :=
  let id := item.globalId.map UInt32.toUInt64
  let grid := item.gridSize.map UInt32.toUInt64
  id.x + grid.x * (id.y + grid.y * id.z)

/-- What a work-item tells the application. -/
inductive Report where
  /-- Its position. -/
  | position (item : WorkItem)
  /-- Arguments that it read, and why it stopped. -/
  | arguments (item : WorkItem) (values : List Kernarg.Value) (stop : Option Kernarg.Truncated)
  /-- That it failed. -/
  | failure
  deriving DecidableEq, Repr, Inhabited

/-! ### Segments -/

/-- The two memories of a workgroup besides global memory. -/
inductive Scratch where
  /-- Shared by the items of a workgroup. -/
  | group
  /-- Of one work-item alone. -/
  | own
  deriving DecidableEq, Repr, Inhabited

/-- Scratch memory of a fixed size. -/
structure ScratchMemory where
  size : Nat
  contents : Contents

namespace ScratchMemory

/-- Scratch memory that holds zeros. -/
def zero (size : Nat) : ScratchMemory := ⟨size, .zero⟩

instance : Inhabited ScratchMemory := ⟨zero 0⟩

/-- The bytes of a range inside the memory. -/
def read? (m : ScratchMemory) (offset count : Nat) : Option (List UInt8) :=
  if offset + count ≤ m.size then some (m.contents.read (.ofNat offset) count) else none

/-- Changes bytes from an offset on. -/
def overwrite (m : ScratchMemory) (offset : Nat) (bs : List UInt8) : ScratchMemory :=
  { m with contents := m.contents.write (.ofNat offset) bs }

end ScratchMemory

/-! ### Programs -/

/-- The accesses of a work-item, each with what is done next. -/
inductive Program (α : Type) where
  | done (value : α)
  /-- Ends the whole dispatch. -/
  | panic
  /-- Reads global memory; nothing is read where the access is refused. -/
  | load (address : UInt64) (count : Nat) (next : Option (List UInt8) → Program α)
  /-- Writes global memory; tells whether the access was allowed. -/
  | store (address : UInt64) (bytes : List UInt8) (next : Bool → Program α)
  /-- Adds to a word of global memory at once; shows what it was, where the access is allowed. -/
  | fetchAdd (width : Nat) (address : UInt64) (amount : Nat) (next : Option Nat → Program α)
  /-- Reads scratch memory; the dispatch ends where the range is outside. -/
  | readScratch (scratch : Scratch) (offset count : Nat) (next : List UInt8 → Program α)
  /-- Writes scratch memory; the dispatch ends where the range is outside. -/
  | writeScratch (scratch : Scratch) (offset : Nat) (bytes : List UInt8) (next : Program α)
  /-- Tells the application. -/
  | report (report : Report) (next : Program α)

namespace Program

variable {α β : Type}

instance : Inhabited (Program α) := ⟨panic⟩

/-- The program followed by what is done with its value. -/
def bind (p : Program α) (f : α → Program β) : Program β :=
  match p with
  | done value => f value
  | panic => panic
  | load address count next => load address count fun bs => (next bs).bind f
  | store address bytes next => store address bytes fun ok => (next ok).bind f
  | fetchAdd width address amount next =>
    fetchAdd width address amount fun previous => (next previous).bind f
  | readScratch scratch offset count next =>
    readScratch scratch offset count fun bs => (next bs).bind f
  | writeScratch scratch offset bytes next => writeScratch scratch offset bytes (next.bind f)
  | report r next => report r (next.bind f)

instance : Monad Program where
  pure := done
  bind := bind

end Program

/-! ### Running -/

/-- What a work-item sees: global memory, its two scratch memories, and the reports made so far,
last first. -/
structure Lane where
  memory : Memory
  group : ScratchMemory
  own : ScratchMemory
  reports : List Report

namespace Lane

/-- One of the scratch memories. -/
def scratch (l : Lane) : Scratch → ScratchMemory
  | .group => l.group
  | .own => l.own

/-- Changes bytes of global memory. -/
def overwrite (l : Lane) (address : UInt64) (bs : List UInt8) : Lane :=
  { l with memory := l.memory.overwrite address bs }

/-- Changes bytes of one of the scratch memories. -/
def overwriteScratch (l : Lane) (scratch : Scratch) (offset : Nat) (bs : List UInt8) : Lane :=
  match scratch with
  | .group => { l with group := l.group.overwrite offset bs }
  | .own => { l with own := l.own.overwrite offset bs }

end Lane

/-- What a program does: its value, if it did not end the dispatch, and what it leaves behind. -/
def Program.run {α : Type} : Program α → Lane → Option α × Lane
  | done value, l => (some value, l)
  | panic, l => (none, l)
  | load address count next, l => (next (l.memory.readBytes? address (.ofNat count))).run l
  | store address bytes next, l =>
    if l.memory.isAccessible address (.ofNat bytes.length) then
      (next true).run (l.overwrite address bytes)
    else (next false).run l
  | fetchAdd width address amount next, l =>
    match l.memory.alignedWord? width address with
    | some previous =>
      (next (some previous)).run (l.overwrite address (Word.bytes width (previous + amount)))
    | none => (next none).run l
  | readScratch scratch offset count next, l =>
    match (l.scratch scratch).read? offset count with
    | some bs => (next bs).run l
    | none => (none, l)
  | writeScratch scratch offset bytes next, l =>
    if offset + bytes.length ≤ (l.scratch scratch).size then
      next.run (l.overwriteScratch scratch offset bytes)
    else (none, l)
  | report r next, l => next.run { l with reports := r :: l.reports }

end Accelerator
