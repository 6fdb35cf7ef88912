import Accelerator.Kernel.Launch
import Accelerator.Proofs.Grid.Numbering
import Mathlib.Data.List.Nodup

/-!
# A launch covers its grid

The grid of a launch is cut into workgroups from the origin on. Where a workgroup reaches beyond
the far edge of the grid, its places outside the grid are left out. So every point of the grid is
one place of one workgroup: the quotient and the remainder of its coordinates by the size of a
workgroup.

## Targets first, edges afterwards

The target of a place is defined for every workgroup and every place, inside the grid or not. So
targets are a bijection with all points of space, by division with remainder in each dimension, and
the edge of the grid is one test on top of it. Counting only the places inside the grid would have
given partial workgroups a case of their own in each dimension.

Everything is done with natural numbers. That the words of a work-item hold them without loss is a
lemma of its own (`Launch.isAt_of_item?`), and follows from the sizes being words.
`Launch.NumberFits` speaks of each sum and product on the way to the number of a work-item, since
each of them is formed in words.

## Main definitions

* `Launch.shape`, `Launch.extent`: the sizes of a workgroup and of the grid, as numbers.
* `Launch.target`: the point at a place of a workgroup.
* `Launch.IsAt`: a work-item that knows its place.

## Main results

* `Launch.target_injective`, `Launch.exists_target`: every point of the grid is the target of one
  place in one workgroup.
* `Launch.isAt_of_item?`: the words of a work-item hold its position without loss.
* `Launch.items_ordered`: the work-items of a workgroup run with x fastest.
* `Launch.count_globalId`: all workgroups together have each point of the grid once.
-/

namespace Accelerator

/-! ### One dimension -/

/-- A workgroup begins before the edge exactly if it is one of the workgroups, partial ones
included. -/
theorem lt_ceilDiv_iff {a g w : Nat} (hw : 0 < w) : a < (g + w - 1) / w ↔ a * w < g := by
  rw [Nat.lt_iff_add_one_le, Nat.le_div_iff_mul_le hw, Nat.succ_mul]
  omega

/-- A coordinate determines the workgroup and the place in it. -/
theorem mul_add_injective {a b a' b' w : Nat} (hb : b < w) (hb' : b' < w)
    (h : a * w + b = a' * w + b') : a = a' ∧ b = b' := by
  have hw : 0 < w := Nat.zero_lt_of_lt hb
  have quotient : ∀ {c d : Nat}, d < w → (c * w + d) / w = c := by
    intro c d hd
    rw [Nat.add_comm, Nat.add_mul_div_right _ _ hw, Nat.div_eq_of_lt hd, Nat.zero_add]
  have ha : a = a' := by rw [← quotient (c := a) hb, h, quotient hb']
  subst ha
  exact ⟨rfl, Nat.add_left_cancel h⟩

theorem Dim3.map_toNat_injective {d e : Dim3 UInt32}
    (h : d.map UInt32.toNat = e.map UInt32.toNat) : d = e := by
  simp only [Dim3.map, Dim3.mk.injEq, UInt32.toNat_inj] at h
  cases d
  cases e
  simp_all

/-- The point of the grid that a work-item stands for. -/
def WorkItem.position (item : WorkItem) : Dim3 Nat :=
  item.globalId.map UInt32.toNat

/-- All components of a triple of words differ from 0. -/
theorem Dim3.ne_zero_of_any {α : Type} [DecidableEq α] [OfNat α 0] {d : Dim3 α}
    (h : d.any (· == 0) = false) : d.x ≠ 0 ∧ d.y ≠ 0 ∧ d.z ≠ 0 := by
  simpa [Dim3.any, and_assoc] using h

namespace Launch

variable {l : Launch} {group group' place place' : Dim3 Nat} {item : WorkItem}

/-! ### Points of the grid -/

/-- The size of a workgroup. -/
def shape (l : Launch) : Dim3 Nat :=
  l.workgroup.map UInt16.toNat

/-- The size of the grid. -/
def extent (l : Launch) : Dim3 Nat :=
  l.grid.map UInt32.toNat

/-- The point at a place of a workgroup; it lies outside the grid where the workgroup does. -/
def target (l : Launch) (group place : Dim3 Nat) : Dim3 Nat :=
  (group.zipWith (· * ·) l.shape).zipWith (· + ·) place

/-- Neither the workgroup nor the grid has an empty dimension. -/
structure Proper (l : Launch) : Prop where
  workgroup : l.workgroup.any (· == 0) = false
  grid : l.grid.any (· == 0) = false

theorem Proper.shape_pos (h : l.Proper) : 0 < l.shape.x ∧ 0 < l.shape.y ∧ 0 < l.shape.z := by
  simpa [shape, Dim3.map, Nat.pos_iff_ne_zero, ← UInt16.toNat_inj] using
    Dim3.ne_zero_of_any h.workgroup

theorem extent_lt (l : Launch) :
    l.extent.x < 2 ^ 32 ∧ l.extent.y < 2 ^ 32 ∧ l.extent.z < 2 ^ 32 :=
  ⟨l.grid.x.toNat_lt, l.grid.y.toNat_lt, l.grid.z.toNat_lt⟩

theorem shape_lt (l : Launch) : l.shape.x < 2 ^ 16 ∧ l.shape.y < 2 ^ 16 ∧ l.shape.z < 2 ^ 16 :=
  ⟨l.workgroup.x.toNat_lt, l.workgroup.y.toNat_lt, l.workgroup.z.toNat_lt⟩

theorem target_injective (hp : place.Within l.shape) (hp' : place'.Within l.shape)
    (h : l.target group place = l.target group' place') : group = group' ∧ place = place' := by
  simp only [target, Dim3.zipWith, Dim3.mk.injEq] at h
  obtain ⟨hx, hy, hz⟩ := h
  obtain ⟨gx, px⟩ := mul_add_injective hp.1 hp'.1 hx
  obtain ⟨gy, py⟩ := mul_add_injective hp.2.1 hp'.2.1 hy
  obtain ⟨gz, pz⟩ := mul_add_injective hp.2.2 hp'.2.2 hz
  cases group
  cases place
  simp_all

/-- A workgroup with a place inside the grid is one of the workgroups of the launch. -/
theorem within_groups (h : l.Proper) (ht : (l.target group place).Within l.extent) :
    group.Within l.groups := by
  obtain ⟨wx, wy, wz⟩ := h.shape_pos
  simp only [target, Dim3.zipWith, Dim3.Within] at ht
  refine ⟨(lt_ceilDiv_iff wx).mpr ?_, (lt_ceilDiv_iff wy).mpr ?_, (lt_ceilDiv_iff wz).mpr ?_⟩
  · exact Nat.lt_of_le_of_lt (Nat.le_add_right _ _) ht.1
  · exact Nat.lt_of_le_of_lt (Nat.le_add_right _ _) ht.2.1
  · exact Nat.lt_of_le_of_lt (Nat.le_add_right _ _) ht.2.2

/-- Every point is the target of a place. -/
theorem exists_target (h : l.Proper) (p : Dim3 Nat) :
    ∃ group place, place.Within l.shape ∧ l.target group place = p := by
  obtain ⟨wx, wy, wz⟩ := h.shape_pos
  refine ⟨p.zipWith (· / ·) l.shape, p.zipWith (· % ·) l.shape,
    ⟨Nat.mod_lt _ wx, Nat.mod_lt _ wy, Nat.mod_lt _ wz⟩, ?_⟩
  simp [target, Dim3.zipWith, Nat.div_add_mod']

/-! ### Work-items -/

/-- The work-item knows its workgroup, its place in it and the point that it stands for, and what
the launch gives to every work-item. -/
structure IsAt (l : Launch) (item : WorkItem) (group place : Dim3 Nat) : Prop where
  globalId : item.globalId.map UInt32.toNat = l.target group place
  groupId : item.groupId.map UInt32.toNat = group
  localId : item.localId.map UInt32.toNat = place
  workgroupSize : item.workgroupSize = l.workgroup
  gridSize : item.gridSize = l.grid
  kernarg : item.kernarg = l.kernarg
  groupBytes : item.groupBytes = l.groupBytes
  privateBytes : item.privateBytes = l.privateBytes

/-- The test that leaves places outside the grid out. -/
theorem not_outside_iff :
    ((l.target group place).zipWith (fun id g => decide (g.toNat ≤ id)) l.grid).any id = false ↔
      (l.target group place).Within l.extent := by
  simp [Dim3.any, Dim3.zipWith, extent, Dim3.map, Dim3.Within, and_assoc]

theorem within_of_item? (h : l.item? group place = some item) :
    (l.target group place).Within l.extent := by
  refine not_outside_iff.mp (Bool.eq_false_iff.mpr fun outside => ?_)
  have none : l.item? group place = none := if_pos outside
  rw [none] at h
  cases h

theorem exists_item? (ht : (l.target group place).Within l.extent) :
    ∃ item, l.item? group place = some item :=
  ⟨_, if_neg (Bool.eq_false_iff.mp (not_outside_iff.mpr ht))⟩

/-- The words of a work-item hold its position without loss. -/
theorem isAt_of_item? (h : l.Proper) (hp : place.Within l.shape)
    (hi : l.item? group place = some item) : l.IsAt item group place := by
  have ht := within_of_item? hi
  obtain ⟨wx, wy, wz⟩ := h.shape_pos
  obtain ⟨sx, sy, sz⟩ := l.shape_lt
  obtain ⟨ex, ey, ez⟩ := l.extent_lt
  have roundTrip : ∀ d : Dim3 Nat, d.x < 2 ^ 32 → d.y < 2 ^ 32 → d.z < 2 ^ 32 →
      (d.map UInt32.ofNat).map UInt32.toNat = d := by
    rintro ⟨x, y, z⟩ hx hy hz
    simp only [Dim3.map, UInt32.toNat_ofNat', Nat.mod_eq_of_lt hx, Nat.mod_eq_of_lt hy,
      Nat.mod_eq_of_lt hz]
  have below : ∀ {a b w e : Nat}, 0 < w → a * w + b < e → e < 2 ^ 32 → a < 2 ^ 32 := by
    intro a b w e hw hlt he
    have := Nat.le_mul_of_pos_right a hw
    omega
  simp only [item?] at hi
  split at hi
  · cases hi
  · cases hi
    refine ⟨?_, ?_, ?_, rfl, rfl, rfl, rfl, rfl⟩
    · exact roundTrip _ (ht.1.trans ex) (ht.2.1.trans ey) (ht.2.2.trans ez)
    · exact roundTrip _ (below wx ht.1 ex) (below wy ht.2.1 ey) (below wz ht.2.2 ez)
    · obtain ⟨px, py, pz⟩ := hp
      exact roundTrip _ (by omega) (by omega) (by omega)

theorem places_eq (l : Launch) : l.places = l.shape.scan := rfl

theorem mem_items {flat : Nat} :
    item ∈ l.items flat ↔
      ∃ place, place.Within l.shape ∧ l.item? (l.groups.point flat) place = some item := by
  simp only [items, List.mem_filterMap, places_eq, Dim3.mem_scan]
  rfl

/-- The work-items of a workgroup run in the order of their places, counted with x fastest. -/
theorem items_ordered (h : l.Proper) (flat : Nat) :
    (l.items flat).Pairwise fun a b =>
      l.shape.number (a.localId.map UInt32.toNat) <
        l.shape.number (b.localId.map UInt32.toNat) := by
  have ascending : l.places.Pairwise fun p q => l.shape.number p < l.shape.number q := by
    rw [places_eq, ← List.pairwise_map, Dim3.map_number_scan]
    exact List.pairwise_lt_range
  rw [items, List.pairwise_filterMap]
  refine ascending.imp_of_mem fun {p q} hp hq less a ha b hb => ?_
  rw [places_eq, Dim3.mem_scan] at hp hq
  rw [(isAt_of_item? h hp ha).localId, (isAt_of_item? h hq hb).localId]
  exact less

/-! ### All workgroups together -/

variable {order : List Nat}

/-- No two work-items of a launch stand for the same point. -/
theorem nodup_position (h : l.Proper) (ho : order.Perm (List.range l.groupCount)) :
    ((order.flatMap l.items).map WorkItem.position).Nodup := by
  have apart : ∀ {flat flat' : Nat}, ∀ {a b : WorkItem}, a ∈ l.items flat → b ∈ l.items flat' →
      a.position = b.position → flat = flat' ∧ a.localId = b.localId := by
    intro flat flat' a b ha hb hab
    obtain ⟨p, hp, ha⟩ := mem_items.mp ha
    obtain ⟨q, hq, hb⟩ := mem_items.mp hb
    have atA := isAt_of_item? h hp ha
    have atB := isAt_of_item? h hq hb
    obtain ⟨groups, places⟩ := target_injective hp hq
      (atA.globalId.symm.trans (hab.trans atB.globalId))
    refine ⟨?_, Dim3.map_toNat_injective (atA.localId.trans (places.trans atB.localId.symm))⟩
    rw [← l.groups.number_point flat, groups, Dim3.number_point]
  rw [List.nodup_iff_pairwise_ne, List.pairwise_map, List.pairwise_flatMap]
  refine ⟨fun flat _ => ?_, ?_⟩
  · refine (items_ordered h flat).imp_of_mem fun {a b} ha hb less hab => ?_
    rw [(apart ha hb hab).2] at less
    exact Nat.lt_irrefl _ less
  · refine (ho.nodup_iff.mpr List.nodup_range).imp fun {flat flat'} hne a ha b hb hab => ?_
    exact hne (apart ha hb hab).1

/-- The work-items of a launch stand for the points of its grid. -/
theorem mem_position (h : l.Proper) (ho : order.Perm (List.range l.groupCount)) {p : Dim3 Nat} :
    p ∈ (order.flatMap l.items).map WorkItem.position ↔ p.Within l.extent := by
  simp only [List.mem_map, List.mem_flatMap, ho.mem_iff, List.mem_range]
  constructor
  · rintro ⟨item, ⟨flat, -, hi⟩, rfl⟩
    obtain ⟨place, hp, hi⟩ := mem_items.mp hi
    rw [WorkItem.position, (isAt_of_item? h hp hi).globalId]
    exact within_of_item? hi
  · intro inside
    obtain ⟨group, place, hp, rfl⟩ := exists_target h p
    obtain ⟨item, hi⟩ := exists_item? inside
    have hg := within_groups h inside
    refine ⟨item, ⟨l.groups.number group, Dim3.number_lt hg, mem_items.mpr ⟨place, hp, ?_⟩⟩, ?_⟩
    · rw [Dim3.point_number hg]
      exact hi
    · exact (isAt_of_item? h hp hi).globalId

/-- Each point of the grid is the global position of one work-item, and no other point is. -/
theorem count_globalId (h : l.Proper) (ho : order.Perm (List.range l.groupCount))
    (p : Dim3 UInt32) :
    ((order.flatMap l.items).map (·.globalId)).count p =
      if (p.map UInt32.toNat).Within l.extent then 1 else 0 := by
  have distinct : ((order.flatMap l.items).map (·.globalId)).Nodup := by
    refine List.Nodup.of_map (Dim3.map UInt32.toNat) ?_
    rw [List.map_map]
    exact nodup_position h ho
  have present : p ∈ (order.flatMap l.items).map (·.globalId) ↔
      (p.map UInt32.toNat).Within l.extent := by
    rw [← mem_position h ho, List.mem_map, List.mem_map]
    refine exists_congr fun item => and_congr_right fun _ => ?_
    exact ⟨fun e => congrArg _ e, fun e => Dim3.map_toNat_injective e⟩
  rw [distinct.count]
  simp only [present]

/-! ### Numbers of work-items -/

/-- The number of a point of the grid and the sums and products on the way to it fit a word. -/
def NumberFits (size p : Dim3 Nat) : Prop :=
  size.y * p.z < 2 ^ 64 ∧ p.y + size.y * p.z < 2 ^ 64 ∧
    size.x * (p.y + size.y * p.z) < 2 ^ 64 ∧ size.number p < 2 ^ 64

theorem numberFits {size p : Dim3 Nat} (hs : size.volume < 2 ^ 64) (hp : p.Within size) :
    NumberFits size p := by
  have total := Dim3.number_lt hp
  have hx : 0 < size.x := Nat.zero_lt_of_lt hp.1
  have row := Nat.le_mul_of_pos_left (p.y + size.y * p.z) hx
  simp only [NumberFits, Dim3.number] at total ⊢
  refine ⟨?_, ?_, ?_, ?_⟩ <;> omega

theorem flatGlobalId_toNat (item : WorkItem)
    (hf : NumberFits (item.gridSize.map UInt32.toNat) item.position) :
    item.flatGlobalId.toNat = (item.gridSize.map UInt32.toNat).number item.position := by
  obtain ⟨plane, row, rows, total⟩ := hf
  simp only [WorkItem.position, Dim3.map, Dim3.number] at plane row rows total ⊢
  simp only [WorkItem.flatGlobalId, Dim3.map, UInt64.toNat_add, UInt64.toNat_mul,
    UInt32.toNat_toUInt64]
  rw [Nat.mod_eq_of_lt plane, Nat.mod_eq_of_lt row, Nat.mod_eq_of_lt rows, Nat.mod_eq_of_lt total]

/-- Every work-item has the number of its point. -/
theorem numbered (h : l.Proper) (hv : l.extent.volume < 2 ^ 64)
    (ho : order.Perm (List.range l.groupCount)) (hi : item ∈ order.flatMap l.items) :
    NumberFits l.extent item.position ∧
      item.flatGlobalId.toNat = l.extent.number item.position := by
  have inside := (mem_position h ho).mp (List.mem_map_of_mem hi)
  obtain ⟨flat, -, hi⟩ := List.mem_flatMap.mp hi
  obtain ⟨place, hp, hi⟩ := mem_items.mp hi
  have grid : item.gridSize.map UInt32.toNat = l.extent := by
    rw [(isAt_of_item? h hp hi).gridSize, extent]
  have fits := numberFits hv inside
  rw [← grid] at fits ⊢
  exact ⟨fits, flatGlobalId_toNat item fits⟩

/-- The numbers of the work-items are the numbers below the volume of the grid. -/
theorem perm_flatGlobalId (h : l.Proper) (hv : l.extent.volume < 2 ^ 64)
    (ho : order.Perm (List.range l.groupCount)) :
    ((order.flatMap l.items).map (·.flatGlobalId.toNat)).Perm (List.range l.extent.volume) := by
  have counted : (order.flatMap l.items).map (·.flatGlobalId.toNat) =
      ((order.flatMap l.items).map WorkItem.position).map l.extent.number := by
    rw [List.map_map]
    exact List.map_congr_left fun item hi => (numbered h hv ho hi).2
  rw [counted]
  have distinct := (nodup_position h ho).map_on fun p hp q hq =>
    Dim3.number_injective ((mem_position h ho).mp hp) ((mem_position h ho).mp hq)
  refine (List.perm_ext_iff_of_nodup distinct List.nodup_range).mpr fun n => ?_
  rw [List.mem_map, List.mem_range]
  constructor
  · rintro ⟨p, hp, rfl⟩
    exact Dim3.number_lt ((mem_position h ho).mp hp)
  · intro hn
    exact ⟨l.extent.point n, (mem_position h ho).mpr (Dim3.within_point hn),
      Dim3.number_point _ n⟩

/-- There are no more workgroups than points, so their number fits a word with the grid's. -/
theorem groupCount_le (h : l.Proper) : l.groupCount ≤ l.extent.volume := by
  have fewer : ∀ {g w : Nat}, 0 < w → (g + w - 1) / w ≤ g := by
    intro g w hw
    have := Nat.le_mul_of_pos_right g hw
    exact Nat.le_of_lt_succ (Nat.div_lt_of_lt_mul (by rw [Nat.mul_comm, Nat.succ_mul]; omega))
  obtain ⟨wx, wy, wz⟩ := h.shape_pos
  exact Nat.mul_le_mul (Nat.mul_le_mul (fewer wx) (fewer wy)) (fewer wz)

end Launch

end Accelerator
