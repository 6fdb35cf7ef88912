import Accelerator.Dim3
import Mathlib.Algebra.Order.Ring.Nat
import Mathlib.Tactic.Ring

/-!
# Counting the points of a box

A box from the origin has as many points as its volume. Counted with x fastest, the points get the
numbers below the volume, each of them once: this is how workgroups are numbered in a launch,
places in a workgroup, and work-items in a grid.

## Numbers, not words

The box and its points are told in natural numbers. Words come in where a launch is compared with
its grid, and nowhere before, so that counting is a matter of quotients and remainders alone.

## Main definitions

* `Dim3.Within`: a point lies in the box of a size.
* `Dim3.number`, `Dim3.point`: the number of a point, and the point of a number.
* `Dim3.scan`: the points of a box by three nested loops, x innermost.

## Main results

* `Dim3.number_point`, `Dim3.point_number`: the two are inverse to each other.
* `Dim3.number_lt`, `Dim3.within_point`: the points of a box have the numbers below its volume.
* `Dim3.map_number_scan`: the nested loops meet the points in the order of their numbers.
-/

namespace Accelerator

namespace Dim3

/-- The point lies in the box from the origin to a size. -/
def Within (p size : Dim3 Nat) : Prop :=
  p.x < size.x ∧ p.y < size.y ∧ p.z < size.z

instance (p size : Dim3 Nat) : Decidable (p.Within size) :=
  inferInstanceAs (Decidable (_ ∧ _))

/-- The number of a point when the box of a size is counted with x fastest. -/
def number (size p : Dim3 Nat) : Nat :=
  p.x + size.x * (p.y + size.y * p.z)

/-- The point of a number when the box of a size is counted with x fastest. -/
def point (size : Dim3 Nat) (n : Nat) : Dim3 Nat :=
  ⟨n % size.x, n / size.x % size.y, n / (size.x * size.y)⟩

variable {p q size : Dim3 Nat} {n : Nat}

/-! ### Numbers and points -/

theorem number_point (size : Dim3 Nat) (n : Nat) : size.number (size.point n) = n := by
  simp only [number, point, ← Nat.div_div_eq_div_mul]
  rw [Nat.mod_add_div, Nat.mod_add_div]

theorem point_number (h : p.Within size) : size.point (size.number p) = p := by
  obtain ⟨hx, hy, -⟩ := h
  have low : size.number p % size.x = p.x := by
    rw [number, Nat.add_mul_mod_self_left, Nat.mod_eq_of_lt hx]
  have high : size.number p / size.x = p.y + size.y * p.z := by
    rw [number, Nat.add_mul_div_left _ _ (Nat.zero_lt_of_lt hx), Nat.div_eq_of_lt hx, Nat.zero_add]
  rw [point, ← Nat.div_div_eq_div_mul, low, high, Nat.add_mul_mod_self_left,
    Nat.mod_eq_of_lt hy, Nat.add_mul_div_left _ _ (Nat.zero_lt_of_lt hy), Nat.div_eq_of_lt hy,
    Nat.zero_add]

theorem number_injective (hp : p.Within size) (hq : q.Within size)
    (h : size.number p = size.number q) : p = q := by
  rw [← point_number hp, ← point_number hq, h]

theorem number_lt (h : p.Within size) : size.number p < size.volume := by
  obtain ⟨hx, hy, hz⟩ := h
  have row : p.y + size.y * p.z < size.y * size.z :=
    calc p.y + size.y * p.z < size.y + size.y * p.z := by omega
      _ = size.y * (p.z + 1) := by ring
      _ ≤ size.y * size.z := Nat.mul_le_mul_left _ hz
  calc size.number p < size.x + size.x * (p.y + size.y * p.z) := by rw [number]; omega
    _ = size.x * (p.y + size.y * p.z + 1) := by ring
    _ ≤ size.x * (size.y * size.z) := Nat.mul_le_mul_left _ row
    _ = size.volume := by rw [volume]; ring

theorem volume_pos : 0 < size.volume ↔ 0 < size.x ∧ 0 < size.y ∧ 0 < size.z := by
  simp only [volume, Nat.pos_iff_ne_zero, ne_eq, mul_eq_zero, not_or, and_assoc]

theorem within_point (h : n < size.volume) : (size.point n).Within size := by
  obtain ⟨hx, hy, -⟩ := volume_pos.mp (Nat.zero_lt_of_lt h)
  refine ⟨Nat.mod_lt _ hx, Nat.mod_lt _ hy, ?_⟩
  exact Nat.div_lt_of_lt_mul h

/-! ### Nested loops -/

/-- The points of the box of a size by three nested loops, x innermost. -/
def scan (size : Dim3 Nat) : List (Dim3 Nat) :=
  (List.range size.z).flatMap fun z =>
    (List.range size.y).flatMap fun y => (List.range size.x).map fun x => ⟨x, y, z⟩

/-- Two nested loops count through the numbers below the product of their bounds. -/
theorem flatMap_range_map (m n : Nat) :
    ((List.range m).flatMap fun j => (List.range n).map fun i => i + n * j) =
      List.range (n * m) := by
  induction m with
  | zero => rfl
  | succ m ih =>
    rw [List.range_succ, List.flatMap_append, ih, Nat.mul_succ, List.range_add]
    simp [Nat.add_comm]

theorem map_number_scan (size : Dim3 Nat) :
    size.scan.map size.number = List.range size.volume := by
  have plane : ∀ z,
      ((List.range size.y).flatMap fun y =>
        (List.range size.x).map fun x => size.number ⟨x, y, z⟩) =
      (List.range (size.x * size.y)).map fun k => k + size.x * size.y * z := by
    intro z
    have split : ∀ x y, size.number ⟨x, y, z⟩ = x + size.x * y + size.x * size.y * z := by
      intro x y
      rw [number]
      ring
    rw [← flatMap_range_map, List.map_flatMap]
    simp only [List.map_map, Function.comp_def, split]
  simp only [scan, List.map_flatMap, List.map_map, Function.comp_def, plane]
  rw [flatMap_range_map, volume]

theorem mem_scan : p ∈ size.scan ↔ p.Within size := by
  simp only [scan, List.mem_flatMap, List.mem_map, List.mem_range, Within]
  constructor
  · rintro ⟨z, hz, y, hy, x, hx, rfl⟩
    exact ⟨hx, hy, hz⟩
  · rintro ⟨hx, hy, hz⟩
    exact ⟨p.z, hz, p.y, hy, p.x, hx, rfl⟩

end Dim3

end Accelerator
