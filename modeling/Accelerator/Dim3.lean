/-!
# Triples along the three dimensions of a grid

Workgroup sizes, grid sizes and positions of work-items have one component for each of the three
dimensions x, y and z.
-/

namespace Accelerator

/-- One component for each of the dimensions x, y and z. -/
structure Dim3 (α : Type) where
  x : α
  y : α
  z : α
  deriving DecidableEq, Repr, Inhabited

namespace Dim3

variable {α β γ : Type}

/-- The components, x first. -/
def toList (d : Dim3 α) : List α :=
  [d.x, d.y, d.z]

/-- The same component in every dimension. -/
def replicate (a : α) : Dim3 α :=
  ⟨a, a, a⟩

/-- A function applied to each component. -/
def map (f : α → β) (d : Dim3 α) : Dim3 β :=
  ⟨f d.x, f d.y, f d.z⟩

/-- A function applied to the two components of each dimension. -/
def zipWith (f : α → β → γ) (d : Dim3 α) (e : Dim3 β) : Dim3 γ :=
  ⟨f d.x e.x, f d.y e.y, f d.z e.z⟩

/-- Some component satisfies a test. -/
def any (p : α → Bool) (d : Dim3 α) : Bool :=
  p d.x || p d.y || p d.z

/-- The product of the components. -/
def volume (d : Dim3 Nat) : Nat :=
  d.x * d.y * d.z

end Dim3

end Accelerator
