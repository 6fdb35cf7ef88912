import Accelerator.Proofs.Grid.Coverage

/-!
# What a launch executes

A launch runs its kernel for one work-item after another until a work-item ends the dispatch. This
module notes for which work-items that happens, and shows that a launch that comes to its end has
run its kernel exactly once for every point of the grid, whatever the order of its workgroups.

## A trace beside the state

What a launch leaves does not tell which work-items were run. `Launch.ranItems` and
`Launch.ranGroups` follow the recursion of the launch and note them. The trace is tied to the launch
by `Launch.foldl_runItem_eq`: running work-items is running the kernel for those that the trace
lists. Without that the trace might be about another program.

## Main definitions

* `Launch.ranItems`, `Launch.ranGroups`: the work-items for which the kernel is run.
* `Launch.Covers`: work-items that stand for every point of the grid, each once.

## Main results

* `Launch.ranGroups_initial`, `Launch.ranGroups_eq`: these are the work-items of the workgroups in
  order, up to the one that ended the dispatch, and all of them if none did.
* `Launch.covers_items`, `Launch.covers_grid`: a launch covers its grid.
-/

namespace Accelerator

/-- The kernel never ends a dispatch, whatever memory a work-item finds. -/
def Kernel.Returns (k : Kernel) : Prop :=
  ∀ item lane, ((k.entry item).run lane).1.isSome = true

namespace Launch

variable {l : Launch} {order : List Nat}

/-! ### The work-items that are run -/

/-- The work-items among the given ones for which the kernel is run, from a state on: each as long
as the dispatch has not ended. -/
def ranItems (l : Launch) : LaunchState × ScratchMemory → List WorkItem → List WorkItem
  | _, [] => []
  | state, item :: rest =>
    if state.1.panicked then [] else item :: l.ranItems (l.runItem state item) rest

/-- The work-items of workgroups in a given order for which the kernel is run. -/
def ranGroups (l : Launch) : List Nat → LaunchState → List WorkItem
  | [], _ => []
  | flat :: rest, state =>
    l.ranItems (state, .zero l.groupBytes) (l.items flat) ++
      l.ranGroups rest (l.runGroup state flat)

/-- Runs the kernel for a work-item, with a private segment of zeros. -/
def execute (l : Launch) (state : LaunchState × ScratchMemory) (item : WorkItem) :
    LaunchState × ScratchMemory :=
  let (value, lane) := (l.kernel.entry item).run
    ⟨state.1.memory, state.2, .zero l.privateBytes, state.1.reports⟩
  (⟨lane.memory, lane.reports, value.isNone⟩, lane.group)

theorem foldl_runItem_of_panicked {state : LaunchState × ScratchMemory}
    (h : state.1.panicked = true) (items : List WorkItem) :
    items.foldl l.runItem state = state := by
  induction items with
  | nil => rfl
  | cons item rest ih =>
    have same : l.runItem state item = state := if_pos h
    rw [List.foldl_cons, same, ih]

theorem runGroup_of_panicked {state : LaunchState} (h : state.panicked = true) (flat : Nat) :
    l.runGroup state flat = state := by
  rw [runGroup, foldl_runItem_of_panicked h]

theorem runGroups_of_panicked {state : LaunchState} (h : state.panicked = true)
    (order : List Nat) : l.runGroups order state = state := by
  induction order with
  | nil => rfl
  | cons flat rest ih =>
    rw [runGroups, List.foldl_cons, runGroup_of_panicked h]
    exact ih

/-- Running work-items is running the kernel for those that are run. -/
theorem foldl_runItem_eq (state : LaunchState × ScratchMemory) (items : List WorkItem) :
    items.foldl l.runItem state = (l.ranItems state items).foldl l.execute state := by
  induction items generalizing state with
  | nil => rfl
  | cons item rest ih =>
    rw [ranItems]
    by_cases ended : state.1.panicked = true
    · rw [if_pos ended, foldl_runItem_of_panicked ended]
      rfl
    · have step : l.runItem state item = l.execute state item := if_neg ended
      rw [if_neg ended, List.foldl_cons, List.foldl_cons, ih, step]

theorem ranItems_initial (state : LaunchState × ScratchMemory) (items : List WorkItem) :
    l.ranItems state items <+: items := by
  induction items generalizing state with
  | nil => exact List.prefix_rfl
  | cons item rest ih =>
    rw [ranItems]
    split
    · exact List.nil_prefix
    · exact List.cons_prefix_cons.mpr ⟨rfl, ih _⟩

/-- Nothing is left out unless the dispatch ends. -/
theorem ranItems_eq {state : LaunchState × ScratchMemory} {items : List WorkItem}
    (h : (items.foldl l.runItem state).1.panicked = false) : l.ranItems state items = items := by
  induction items generalizing state with
  | nil => rfl
  | cons item rest ih =>
    have running : ¬ state.1.panicked = true := fun ended => by
      rw [foldl_runItem_of_panicked ended, ended] at h
      cases h
    rw [ranItems, if_neg running, ih h]

theorem ranGroups_of_panicked {state : LaunchState} (h : state.panicked = true)
    (order : List Nat) : l.ranGroups order state = [] := by
  induction order with
  | nil => rfl
  | cons flat rest ih =>
    have none : ∀ items, l.ranItems (state, .zero l.groupBytes) items = [] := by
      intro items
      cases items with
      | nil => rfl
      | cons item rest => exact if_pos h
    rw [ranGroups, none, runGroup_of_panicked h, ih, List.append_nil]

/-- Nothing is left out unless the dispatch ends. -/
theorem ranGroups_eq {state : LaunchState} (h : (l.runGroups order state).panicked = false) :
    l.ranGroups order state = order.flatMap l.items := by
  induction order generalizing state with
  | nil => rfl
  | cons flat rest ih =>
    have running : (l.runGroup state flat).panicked = false := by
      by_contra ended
      rw [Bool.not_eq_false] at ended
      rw [runGroups, List.foldl_cons] at h
      have stuck : rest.foldl l.runGroup (l.runGroup state flat) = l.runGroup state flat :=
        runGroups_of_panicked ended rest
      rw [stuck, ended] at h
      cases h
    rw [ranGroups, ranItems_eq running, ih h, List.flatMap_cons]

/-- What runs is an initial part of the work-items in order, also when the dispatch ends early. -/
theorem ranGroups_initial (order : List Nat) (state : LaunchState) :
    l.ranGroups order state <+: order.flatMap l.items := by
  induction order generalizing state with
  | nil => exact List.prefix_rfl
  | cons flat rest ih =>
    rw [ranGroups, List.flatMap_cons]
    by_cases ended : (l.runGroup state flat).panicked = true
    · rw [ranGroups_of_panicked ended, List.append_nil]
      exact (ranItems_initial _ _).trans (List.prefix_append _ _)
    · rw [ranItems_eq (Bool.eq_false_iff.mpr ended)]
      exact List.prefix_append_right_inj _ |>.mpr (ih _)

/-! ### Kernels that return -/

theorem panicked_runGroup (hk : l.kernel.Returns) {state : LaunchState}
    (h : state.panicked = false) (flat : Nat) : (l.runGroup state flat).panicked = false := by
  have step : ∀ (items : List WorkItem) (state : LaunchState × ScratchMemory),
      state.1.panicked = false → (items.foldl l.runItem state).1.panicked = false := by
    intro items
    induction items with
    | nil => exact fun _ h => h
    | cons item rest ih =>
      intro state h
      refine ih _ ?_
      rw [runItem, if_neg (Bool.eq_false_iff.mp h)]
      exact Option.isNone_eq_false_iff.mpr (hk item _)
  exact step _ _ h

/-- A launch of a kernel that returns comes to its end. -/
theorem panicked_runGroups (hk : l.kernel.Returns) {state : LaunchState}
    (h : state.panicked = false) (order : List Nat) :
    (l.runGroups order state).panicked = false := by
  induction order generalizing state with
  | nil => exact h
  | cons flat rest ih => exact ih (panicked_runGroup hk h flat)

/-! ### Covering the grid -/

/-- The work-items stand for every point of the grid, each once, and for no other point. Each
lies where its workgroup and its place in it say, and their numbers, for which 64 bits are enough,
are the numbers below the volume of the grid. -/
structure Covers (l : Launch) (ran : List WorkItem) : Prop where
  once : ∀ p : Dim3 UInt32, (ran.map (·.globalId)).count p =
    if (p.map UInt32.toNat).Within l.extent then 1 else 0
  placed : ∀ item ∈ ran, ∃ group place, group.Within l.groups ∧ place.Within l.shape ∧
    l.IsAt item group place
  numbered : ∀ item ∈ ran, NumberFits l.extent item.position ∧
    item.flatGlobalId.toNat = l.extent.number item.position
  bijective : (ran.map (·.flatGlobalId.toNat)).Perm (List.range l.extent.volume)

theorem covers_items (h : l.Proper) (hv : l.extent.volume < 2 ^ 64)
    (ho : order.Perm (List.range l.groupCount)) : l.Covers (order.flatMap l.items) where
  once := count_globalId h ho
  placed item hi := by
    obtain ⟨flat, hf, hi⟩ := List.mem_flatMap.mp hi
    obtain ⟨place, hp, hi⟩ := mem_items.mp hi
    have inRange : flat < l.groups.volume := List.mem_range.mp (ho.mem_iff.mp hf)
    exact ⟨_, place, Dim3.within_point inRange, hp, isAt_of_item? h hp hi⟩
  numbered item hi := numbered h hv ho hi
  bijective := perm_flatGlobalId h hv ho

/-- **A launch covers its grid.** Running a workgroup runs the kernel for its work-items in turn,
x fastest, up to one that ends the dispatch. Whatever the order of the workgroups, a launch that no
work-item ends has run the kernel exactly once for every point of the grid, and no work-item of a
kernel that returns ends it. The number of workgroups fits a word. -/
theorem covers_grid (l : Launch) (h : l.Proper) (hv : l.extent.volume < 2 ^ 64)
    (ho : order.Perm (List.range l.groupCount)) (state : LaunchState) :
    l.groupCount < 2 ^ 64 ∧
      (∀ before flat, l.runGroup before flat =
        ((l.ranItems (before, .zero l.groupBytes) (l.items flat)).foldl l.execute
          (before, .zero l.groupBytes)).1) ∧
      (∀ flat, (l.items flat).Pairwise fun a b =>
        l.shape.number (a.localId.map UInt32.toNat) < l.shape.number (b.localId.map UInt32.toNat)) ∧
      l.ranGroups order state <+: order.flatMap l.items ∧
      (l.kernel.Returns → state.panicked = false → (l.runGroups order state).panicked = false) ∧
      ((l.runGroups order state).panicked = false →
        l.ranGroups order state = order.flatMap l.items ∧ l.Covers (l.ranGroups order state)) := by
  refine ⟨Nat.lt_of_le_of_lt (groupCount_le h) hv, fun before flat => ?_, items_ordered h,
    ranGroups_initial order state, fun returns running => panicked_runGroups returns running order,
    fun ended => ?_⟩
  · rw [runGroup, foldl_runItem_eq]
  · have all := ranGroups_eq ended
    exact ⟨all, all ▸ covers_items h hv ho⟩

/-- A launch whose workgroups of two by two places reach beyond a grid of three by three. -/
def overhanging : Launch where
  kernel := .ofEntry "overhanging" fun item => .report (.position item) (.done ())
  kernarg := []
  workgroup := ⟨2, 2, 1⟩
  grid := ⟨3, 3, 1⟩
  groupBytes := 0
  privateBytes := 0

theorem covers_overhanging :
    overhanging.Proper ∧ [3, 0, 2, 1].Perm (List.range overhanging.groupCount) ∧
      overhanging.Covers (overhanging.ranGroups [3, 0, 2, 1] ⟨.empty, [], false⟩) := by
  have proper : overhanging.Proper := ⟨by decide, by decide⟩
  have order : [3, 0, 2, 1].Perm (List.range overhanging.groupCount) := by decide
  have covered := covers_grid overhanging proper (by decide) order ⟨.empty, [], false⟩
  have ended := covered.2.2.2.2.1 (fun _ _ => rfl) rfl
  exact ⟨proper, order, (covered.2.2.2.2.2 ended).2⟩

end Launch

end Accelerator
