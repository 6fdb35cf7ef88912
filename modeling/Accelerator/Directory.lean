import Accelerator.Arena

/-!
# Directories

A directory is an arena that remembers. An object that has been taken out is no longer found by
its handle, but whoever held on to it before may still look at it. Handles are issued once only,
so the handle still tells which object is meant.

## Main definitions

* `Directory`: the live objects, and the objects taken out.
* `Directory.get?`: the live object of a handle.
* `Directory.held?`: the object of a handle, live or taken out.
* `Directory.insert`, `Directory.remove`, `Directory.drain`, `Directory.modify`: changes.
* `Directory.modifyHeld`: a change by somebody who held on to the object.
-/

namespace Accelerator

/-- A store of objects in which those that were taken out can still be looked at. -/
structure Directory (α : Type) where
  live : Arena α
  /-- The objects taken out, the last in front. -/
  retired : List (Handle × α)
  deriving Repr

namespace Directory

variable {α : Type}

/-- A directory in which there has never been anything. -/
def empty : Directory α := ⟨.empty, []⟩

instance : Inhabited (Directory α) := ⟨empty⟩

/-- The handle that the next insertion will issue. -/
def nextHandle (d : Directory α) : Handle :=
  d.live.nextHandle

/-- Puts an object at the next handle. -/
def insert (d : Directory α) (value : α) : Directory α :=
  { d with live := d.live.insert value }

/-- The live object of a handle. -/
def get? (d : Directory α) (h : Handle) : Option α :=
  d.live.get? h

/-- The handle names a live object. -/
def isLive (d : Directory α) (h : Handle) : Bool :=
  (d.get? h).isSome

/-- The object of a handle, also when it has been taken out. -/
def held? (d : Directory α) (h : Handle) : Option α :=
  (d.get? h).or (d.retired.lookup h)

/-- Takes out the object of a handle; `last` is the last change made to it. -/
def remove (d : Directory α) (h : Handle) (last : α → α) : Option (α × Directory α) :=
  (d.live.remove h).map fun (value, live) => (last value, ⟨live, (h, last value) :: d.retired⟩)

/-- Takes out all objects; `last` is the last change made to each. -/
def drain (d : Directory α) (last : α → α) : Directory α where
  live := d.live.drain
  retired := (d.live.entries.map fun (h, value) => (h, last value)) ++ d.retired

/-- Changes the live object of a handle. -/
def modify (d : Directory α) (h : Handle) (f : α → α) : Directory α :=
  { d with live := d.live.modify h f }

/-- Changes the object of a handle, also when it has been taken out. -/
def modifyHeld (d : Directory α) (h : Handle) (f : α → α) : Directory α :=
  if d.isLive h then d.modify h f
  else { d with retired := d.retired.map fun (k, value) => (k, if k = h then f value else value) }

/-- The live objects in slot order. -/
def values (d : Directory α) : List α :=
  d.live.values

/-- The number of live objects. -/
def size (d : Directory α) : Nat :=
  d.live.size

end Directory

end Accelerator
