import Accelerator.Handle

/-!
# Arenas

An arena issues handles for objects. An object lives in a slot; removing it moves the slot to its
next generation, so that old handles of the slot no longer find anything. Slots that became free
are used again, the one freed last first; a slot whose generation came round to 0 is never used
again.

## Main definitions

* `Arena`: slots, the stack of free ones, and the number of objects.
* `Arena.insertWith`, `Arena.remove`, `Arena.drain`: adding an object that knows its handle,
  removing one, removing all.
* `Arena.get?`, `Arena.values`, `Arena.entries`, `Arena.nth?`, `Arena.size`: looking.
* `Arena.modify`: changing an object in place.
-/

namespace Accelerator

/-- A place for one object. -/
structure ArenaSlot (α : Type) where
  generation : UInt32
  value : Option α
  deriving Repr

/-- A slot after its object has been taken out. -/
def ArenaSlot.vacated {α : Type} (slot : ArenaSlot α) : ArenaSlot α :=
  ⟨slot.generation + 1, none⟩

/-- A store of objects that issues a handle for each. -/
structure Arena (α : Type) where
  slots : Array (ArenaSlot α)
  /-- Free slots, the one freed last in front. -/
  free : List UInt32
  /-- The number of objects. -/
  count : Nat
  deriving Repr

namespace Arena

variable {α ε : Type}

/-- An arena without slots. -/
def empty : Arena α := ⟨#[], [], 0⟩

instance : Inhabited (Arena α) := ⟨empty⟩

/-- The slot with a given number, if there is one. -/
def slot? (a : Arena α) (index : UInt32) : Option (ArenaSlot α) :=
  a.slots[index.toNat]?

/-- The handle that the next insertion will issue. -/
def nextHandle (a : Arena α) : Handle :=
  match a.free with
  | [] => .ofParts (.ofNat a.slots.size) 1
  | index :: _ => .ofParts index ((a.slot? index).elim 0 (·.generation))

/-- Puts an object at the next handle. -/
def insert (a : Arena α) (value : α) : Arena α :=
  match a.free with
  | [] => { a with slots := a.slots.push ⟨1, some value⟩, count := a.count + 1 }
  | index :: rest =>
    { slots := a.slots.modify index.toNat fun slot => { slot with value := some value }
      free := rest
      count := a.count + 1 }

/-- Inserts an object that is made from its own handle; nothing happens if making it fails. -/
def insertWith (a : Arena α) (make : Handle → Except ε α) : Except ε α × Arena α :=
  match make a.nextHandle with
  | .error e => (.error e, a)
  | .ok value => (.ok value, a.insert value)

/-- The object that a handle names. -/
def get? (a : Arena α) (h : Handle) : Option α :=
  if h.isNull then none
  else match a.slot? h.index with
    | none => none
    | some slot => if slot.generation = h.generation then slot.value else none

/-- Takes out the object that a handle names, which makes the handle stale. -/
def remove (a : Arena α) (h : Handle) : Option (α × Arena α) :=
  (a.get? h).map fun value =>
    (value,
      { slots := a.slots.modify h.index.toNat ArenaSlot.vacated
        free := if h.generation + 1 = 0 then a.free else h.index :: a.free
        count := a.count - 1 })

/-- Takes out all objects, in slot order. -/
def drain (a : Arena α) : Arena α where
  slots := a.slots.map fun slot => if slot.value.isSome then ArenaSlot.vacated slot else slot
  free := (a.slots.toList.zipIdx).foldl
    (fun free (slot, index) =>
      if slot.value.isSome ∧ slot.generation + 1 ≠ 0 then .ofNat index :: free else free) a.free
  count := 0

/-- The objects in slot order. -/
def values (a : Arena α) : List α :=
  a.slots.toList.filterMap (·.value)

/-- The objects in slot order, each with its handle. -/
def entries (a : Arena α) : List (Handle × α) :=
  a.slots.toList.zipIdx.filterMap fun (slot, index) =>
    slot.value.map fun value => (.ofParts (.ofNat index) slot.generation, value)

/-- The object at a position among the objects in slot order. -/
def nth? (a : Arena α) (n : Nat) : Option α :=
  a.values[n]?

/-- The number of objects. -/
def size (a : Arena α) : Nat :=
  a.count

/-- Changes the object that a handle names, if it names one. -/
def modify (a : Arena α) (h : Handle) (f : α → α) : Arena α :=
  if (a.get? h).isSome then
    { a with
      slots := a.slots.modify h.index.toNat fun slot => { slot with value := slot.value.map f } }
  else a

end Arena

end Accelerator
