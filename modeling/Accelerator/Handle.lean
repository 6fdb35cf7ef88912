import Accelerator.Word

/-!
# Handles

A handle is a 64-bit name of a runtime object: the number of a slot in its low half, the
generation of that slot in its high half. Generations of issued handles are never 0 at first, so
the handle 0 names nothing; it stands for "none" in packets.
-/

namespace Accelerator

/-- The name of a runtime object. -/
structure Handle where
  /-- The word as carried in packets. -/
  raw : UInt64
  deriving DecidableEq, Repr, Inhabited, Hashable

namespace Handle

/-- The handle that names nothing. -/
def null : Handle := ⟨0⟩

/-- The handle of a slot in a generation. -/
def ofParts (index generation : UInt32) : Handle :=
  ⟨(generation.toUInt64 <<< 32) ||| index.toUInt64⟩

/-- The number of the slot. -/
def index (h : Handle) : UInt32 :=
  h.raw.toUInt32

/-- The generation of the slot. -/
def generation (h : Handle) : UInt32 :=
  (h.raw >>> 32).toUInt32

/-- The handle names nothing. -/
def isNull (h : Handle) : Bool :=
  h.raw == 0

/-- The handle as one hexadecimal number. -/
def hex (h : Handle) : String :=
  Word.hex h.raw.toNat

/-- The handle as a slot and a generation. -/
def describe (h : Handle) : String :=
  "Handle(" ++ toString h.index.toNat ++ "v" ++ toString h.generation.toNat ++ ")"

end Handle

end Accelerator
