import Std.Data.HashMap

/-!
# The contents of memory

Every address holds a byte; an address that was never written holds 0. Addresses are words, so the
address behind the last one is 0.

## Main definitions

* `Contents`: a byte for every address, and `Contents.byteAt`.
* `Contents.read`, `Contents.write`, `Contents.clear`: ranges of bytes.

## Main statements

* `Contents.byteAt_set_self`, `Contents.byteAt_set_of_ne`: a byte that is set is found at its
  address, and no other address changes.
-/

namespace Accelerator

/-- A byte for every address. Only addresses that were written are kept. -/
structure Contents where
  cells : Std.HashMap UInt64 UInt8

namespace Contents

/-- All bytes are 0. -/
def zero : Contents := ⟨∅⟩

instance : Inhabited Contents := ⟨zero⟩

/-- The byte at an address. -/
def byteAt (c : Contents) (address : UInt64) : UInt8 :=
  c.cells.getD address 0

/-- Changes the byte at an address. -/
def set (c : Contents) (address : UInt64) (value : UInt8) : Contents :=
  ⟨c.cells.insert address value⟩

@[simp] theorem byteAt_set_self (c : Contents) (address : UInt64) (value : UInt8) :
    (c.set address value).byteAt address = value := by
  simp [byteAt, set]

theorem byteAt_set_of_ne (c : Contents) {address other : UInt64} (value : UInt8)
    (h : other ≠ address) : (c.set address value).byteAt other = c.byteAt other := by
  simp [byteAt, set, Std.HashMap.getD_insert, Ne.symm h]

/-- The bytes of a range. -/
def read (c : Contents) (address : UInt64) (count : Nat) : List UInt8 :=
  (List.range count).map fun i => c.byteAt (address + .ofNat i)

/-- Changes the bytes of a range. -/
def write (c : Contents) (address : UInt64) : List UInt8 → Contents
  | [] => c
  | b :: rest => (c.set address b).write (address + 1) rest

/-- Sets the bytes of a range to 0. -/
def clear (c : Contents) (address size : UInt64) : Contents :=
  ⟨c.cells.filter fun a _ => size ≤ a - address⟩

@[simp] theorem length_read (c : Contents) (address : UInt64) (count : Nat) :
    (c.read address count).length = count := by
  simp [read]

end Contents

end Accelerator
