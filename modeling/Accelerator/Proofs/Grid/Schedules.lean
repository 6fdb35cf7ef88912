import Accelerator.Proofs.Grid.Admission
import Accelerator.Proofs.Grid.Footprints
import Accelerator.Topology.Config
import Mathlib.Data.List.Induction
import Mathlib.Data.List.Pairwise

/-!
# Schedules of workgroups

Workgroups that do not write what others read or write may be run in any order: each of them finds
what it would have found if it had been run alone, in the memory in which the dispatch began, so it
does the same, and memory is the same in the end. Nothing passes from one workgroup to another but
through global memory: each has a group segment of zeros to begin with, and each work-item a private
segment of zeros.

A work-item that ends the dispatch keeps its workgroup from going on, and it is open which of the
other workgroups are still run. So the order is taken here of workgroups that are all run, each to
its own end. It is the order of a launch unless some work-item ends the dispatch, and whether one
does is the same in every order.

## Why orders are not compared with each other

Each order is compared with the workgroups run alone, by `Launch.AsAlone`, which speaks of the set
of workgroups that are done and not of their order; so two orders that are done with the same
workgroups agree. To compare two orders directly one would exchange neighbours, and would have to
show each time that they are independent in the memory that is there in between.

Independence itself is a condition on workgroups run alone, which nobody ever sees. What can be seen
is one run: if no workgroup turns out to write what another touches, they are independent, and then
so they are in every other order.

## Main definitions

* `Launch.starts`: the work-items that are run, each with what it sees in the beginning.
* `Launch.footprint`, `Launch.Independent`: what a workgroup reads and writes, and workgroups that
  do not write what others read or write.
* `Launch.runEach`: running workgroups in a given order, each to its own end.
* `Launch.Undisturbed`: work-items that find what they find if their workgroup is run alone.

## Main results

* `Launch.items_agree`: what a workgroup does depends only on the bytes that it reads.
* `Launch.asAlone_runEach`: independent workgroups do what they would have done alone.
* `Launch.independent_of_footprints`: that they are independent can be told from any one run.
* `KernelDispatch.schedules_agree`: the outcome of a dispatch does not depend on the order.
-/

namespace Accelerator

namespace Launch

variable {l : Launch} {m : Memory} {S : Set UInt64} {x : UInt64} {flat : Nat} {order : List Nat}

/-! ### What work-items see -/

/-- What a work-item sees that is run next. -/
def lane (l : Launch) (state : LaunchState × ScratchMemory) : Lane :=
  ⟨state.1.memory, state.2, .zero l.privateBytes, state.1.reports⟩

/-- The work-items among the given ones that are run, from a state on, each with what it sees in the
beginning. -/
def starts (l : Launch) : LaunchState × ScratchMemory → List WorkItem → List (WorkItem × Lane)
  | _, [] => []
  | state, item :: rest =>
    if state.1.panicked then [] else (item, l.lane state) :: l.starts (l.runItem state item) rest

/-- A work-item with its two segments. -/
def segments (run : WorkItem × Lane) : WorkItem × ScratchMemory × ScratchMemory :=
  (run.1, run.2.group, run.2.own)

/-- What work-items read and write of global memory. -/
def touched (l : Launch) : List (WorkItem × Lane) → Footprint
  | [] => .nothing
  | run :: rest => (l.kernel.entry run.1).footprint run.2 ++ l.touched rest

/-- They are the work-items for which the kernel is run. -/
theorem map_fst_starts (state : LaunchState × ScratchMemory) (items : List WorkItem) :
    (l.starts state items).map Prod.fst = l.ranItems state items := by
  induction items generalizing state with
  | nil => rfl
  | cons item rest ih =>
    rw [starts, ranItems]
    split
    · rfl
    · rw [List.map_cons, ih]

section Items

variable {state state' : LaunchState × ScratchMemory}

/-- What running a work-item leaves. -/
theorem runItem_eq (running : ¬ state.1.panicked = true) (item : WorkItem) :
    l.runItem state item =
      (⟨((l.kernel.entry item).run (l.lane state)).2.memory,
        ((l.kernel.entry item).run (l.lane state)).2.reports,
        ((l.kernel.entry item).run (l.lane state)).1.isNone⟩,
        ((l.kernel.entry item).run (l.lane state)).2.group) :=
  if_neg running

/-- Work-items change only the bytes that they write. -/
theorem byteAt_items (items : List WorkItem) (state : LaunchState × ScratchMemory)
    (spared : x ∉ (l.touched (l.starts state items)).writes) :
    (items.foldl l.runItem state).1.memory.contents.byteAt x =
      state.1.memory.contents.byteAt x := by
  induction items generalizing state with
  | nil => rfl
  | cons item rest ih =>
    rw [List.foldl_cons]
    by_cases ended : state.1.panicked = true
    · have same : l.runItem state item = state := if_pos ended
      rw [same, foldl_runItem_of_panicked ended]
    · rw [starts, if_neg ended, touched, Footprint.mem_writes_append, not_or] at spared
      rw [ih _ spared.2, runItem_eq ended]
      exact Program.byteAt_run _ _ spared.1

/-- Work-items do the same from both states: the same are run with the same segments, read and write
the same addresses, and leave the same behind there, and where the states agreed before. -/
structure SameItems (l : Launch) (S : Set UInt64) (items : List WorkItem)
    (state state' : LaunchState × ScratchMemory) : Prop where
  segments : (l.starts state' items).map segments = (l.starts state items).map segments
  touched : l.touched (l.starts state' items) = l.touched (l.starts state items)
  memory : (items.foldl l.runItem state).1.memory.AgreesOn
    (S ∪ {x | x ∈ (l.touched (l.starts state items)).writes})
    (items.foldl l.runItem state').1.memory
  panicked : (items.foldl l.runItem state').1.panicked = (items.foldl l.runItem state).1.panicked

/-- What the work-items of a workgroup do depends on no bytes of global memory but those that they
read. -/
theorem items_agree (items : List WorkItem) (memory : state.1.memory.AgreesOn S state'.1.memory)
    (group : state'.2 = state.2) (panicked : state'.1.panicked = state.1.panicked)
    (reads : ∀ x ∈ (l.touched (l.starts state items)).reads, x ∈ S) :
    l.SameItems S items state state' := by
  induction items generalizing state state' S with
  | nil => exact ⟨rfl, rfl, memory.mono (Footprint.union_nothing_subset S), panicked⟩
  | cons item rest ih =>
    by_cases ended : state.1.panicked = true
    · have ended' : state'.1.panicked = true := panicked.trans ended
      have none : ∀ {state : LaunchState × ScratchMemory}, state.1.panicked = true →
          l.starts state (item :: rest) = [] := fun ended => if_pos ended
      refine ⟨by rw [none ended, none ended'], by rw [none ended, none ended'], ?_, ?_⟩
      · rw [foldl_runItem_of_panicked ended, foldl_runItem_of_panicked ended', none ended]
        exact memory.mono (Footprint.union_nothing_subset S)
      · rw [foldl_runItem_of_panicked ended, foldl_runItem_of_panicked ended', panicked]
    · have running : ¬ state'.1.panicked = true := panicked ▸ ended
      rw [starts, if_neg ended, touched] at reads
      have lanes : (l.lane state).AgreesOn S (l.lane state') := ⟨memory, group, rfl⟩
      have same := (l.kernel.entry item).run_agrees lanes fun x here =>
        reads x (Footprint.mem_reads_append.mpr (.inl here))
      have next : l.SameItems
          (S ∪ {x | x ∈ ((l.kernel.entry item).footprint (l.lane state)).writes}) rest
          (l.runItem state item) (l.runItem state' item) := by
        refine ih ?_ ?_ ?_ fun x here =>
          .inl (reads x (Footprint.mem_reads_append.mpr (.inr here)))
        all_goals rw [runItem_eq ended, runItem_eq running]
        · exact same.leaves.memory
        · exact same.leaves.group
        · exact congrArg Option.isNone same.value
      refine ⟨?_, ?_, ?_, next.panicked⟩
      · rw [starts, if_neg running, starts, if_neg ended, List.map_cons, List.map_cons,
          next.segments]
        exact congrArg (· :: _) (Prod.ext rfl (Prod.ext group rfl))
      · rw [starts, if_neg running, starts, if_neg ended, touched, touched, next.touched]
        exact congrArg (· ++ _) same.footprint
      · rw [List.foldl_cons, List.foldl_cons, starts, if_neg ended, touched]
        exact next.memory.mono (Footprint.union_append_subset _ _ _)

end Items

/-- Each work-item starts with the group segment that the one before it left, the first with a given
one. -/
def HandsOver (l : Launch) : ScratchMemory → List (WorkItem × Lane) → Prop
  | _, [] => True
  | group, run :: rest =>
    run.2.group = group ∧ l.HandsOver ((l.kernel.entry run.1).run run.2).2.group rest

theorem handsOver_starts (state : LaunchState × ScratchMemory) (items : List WorkItem) :
    l.HandsOver state.2 (l.starts state items) := by
  induction items generalizing state with
  | nil => trivial
  | cons item rest ih =>
    rw [starts]
    split
    case isTrue => trivial
    case isFalse running =>
      have next := ih (l.runItem state item)
      rw [runItem_eq running] at next ⊢
      exact ⟨rfl, next⟩

/-- The private segment of a work-item that is run holds zeros, and the group segment is as large as
in the beginning. -/
theorem segments_of_mem_starts {state : LaunchState × ScratchMemory} {items : List WorkItem}
    {run : WorkItem × Lane} (listed : run ∈ l.starts state items) :
    run.2.own = .zero l.privateBytes ∧ run.2.group.size = state.2.size := by
  induction items generalizing state with
  | nil => cases listed
  | cons item rest ih =>
    rw [starts] at listed
    split at listed
    case isTrue => cases listed
    case isFalse running =>
      rcases List.mem_cons.mp listed with rfl | later
      · exact ⟨rfl, rfl⟩
      · obtain ⟨own, group⟩ := ih later
        rw [runItem_eq running] at group
        exact ⟨own, group.trans (Program.size_group_run _ _)⟩

/-- All work-items have the arguments of the launch. -/
theorem kernarg_of_mem_items {item : WorkItem} (listed : item ∈ l.items flat) :
    item.kernarg = l.kernarg := by
  obtain ⟨place, -, found⟩ := mem_items.mp listed
  rw [item?] at found
  split at found
  · cases found
  · cases found
    rfl

/-! ### Workgroups -/

/-- What a workgroup leaves that is run alone in a memory. -/
def alone (l : Launch) (m : Memory) (flat : Nat) : LaunchState :=
  l.runGroup ⟨m, [], false⟩ flat

/-- The work-items of a workgroup that is run alone in a memory, each with what it sees in the
beginning. -/
def aloneStarts (l : Launch) (m : Memory) (flat : Nat) : List (WorkItem × Lane) :=
  l.starts (⟨m, [], false⟩, .zero l.groupBytes) (l.items flat)

/-- What a workgroup that is run alone in a memory reads and writes of it. -/
def footprint (l : Launch) (m : Memory) (flat : Nat) : Footprint :=
  l.touched (l.aloneStarts m flat)

/-- No workgroup writes a byte that another reads or writes. -/
def Independent (l : Launch) (m : Memory) : Prop :=
  ∀ flat < l.groupCount, ∀ other < l.groupCount, flat ≠ other →
    (l.footprint m flat).Spares (l.footprint m other)

instance : Decidable (l.Independent m) :=
  inferInstanceAs (Decidable (∀ flat < l.groupCount, ∀ other < l.groupCount, flat ≠ other →
    (l.footprint m flat).Spares (l.footprint m other)))

/-- Runs a workgroup, also if the dispatch has ended. -/
def runToEnd (l : Launch) (state : LaunchState) (flat : Nat) : LaunchState :=
  let after := l.runGroup { state with panicked := false } flat
  { after with panicked := state.panicked || after.panicked }

/-- Runs workgroups in a given order, each to its own end. -/
def runEach (l : Launch) (order : List Nat) (state : LaunchState) : LaunchState :=
  order.foldl l.runToEnd state

/-- The work-items of a workgroup that is run after others, each with what it sees in the
beginning. -/
def startsAfter (l : Launch) (state : LaunchState) (flat : Nat) : List (WorkItem × Lane) :=
  l.starts ({ state with panicked := false }, .zero l.groupBytes) (l.items flat)

/-- What workgroups leave each of which did what it does alone: what they wrote, and elsewhere what
was there before. -/
structure AsAlone (l : Launch) (m : Memory) (done : List Nat) (state : LaunchState) : Prop where
  refilled : m.Refilled state.memory
  written : ∀ flat ∈ done, ∀ x ∈ (l.footprint m flat).writes,
    state.memory.contents.byteAt x = (l.alone m flat).memory.contents.byteAt x
  spared : ∀ x, (∀ flat ∈ done, x ∉ (l.footprint m flat).writes) →
    state.memory.contents.byteAt x = m.contents.byteAt x
  panicked : state.panicked = true ↔ ∃ flat ∈ done, (l.alone m flat).panicked = true

namespace AsAlone

variable {done : List Nat} {state state' : LaunchState}

/-- A workgroup that reads nothing that was written does what it does alone. -/
theorem sameItems (before : l.AsAlone m done state)
    (apart : ∀ other ∈ done, (l.footprint m other).Spares (l.footprint m flat)) :
    l.SameItems {x | ∀ other ∈ done, x ∉ (l.footprint m other).writes} (l.items flat)
      (⟨m, [], false⟩, .zero l.groupBytes)
      ({ state with panicked := false }, .zero l.groupBytes) := by
  refine items_agree _ ⟨before.refilled, before.spared⟩ rfl rfl ?_
  intro x read other listed written
  exact (apart other listed x written).1 read

/-- Another workgroup is run, which reads and writes nothing that was written. -/
theorem next (before : l.AsAlone m done state)
    (apart : ∀ other ∈ done, (l.footprint m other).Spares (l.footprint m flat)) :
    l.AsAlone m (done ++ [flat]) (l.runToEnd state flat) := by
  have same := before.sameItems apart
  have kept : ∀ x, x ∉ (l.footprint m flat).writes →
      (l.runToEnd state flat).memory.contents.byteAt x = state.memory.contents.byteAt x := by
    intro x outside
    refine byteAt_items _ _ ?_
    rw [same.touched]
    exact outside
  refine ⟨before.refilled.trans (l.refilled_items _ _), ?_, ?_, ?_⟩
  · intro other listed x written
    rcases List.mem_append.mp listed with earlier | last
    · rw [kept x (apart other earlier x written).2]
      exact before.written other earlier x written
    · obtain rfl := List.mem_singleton.mp last
      exact same.memory.bytes x (.inr written)
  · intro x outside
    rw [kept x (outside flat (by simp))]
    exact before.spared x fun other listed => outside other (List.mem_append_left _ listed)
  · have ended : (l.runToEnd state flat).panicked =
        (state.panicked || (l.alone m flat).panicked) := congrArg (_ || ·) same.panicked
    rw [ended, Bool.or_eq_true, before.panicked]
    simp [or_and_right, exists_or]

/-- What is left does not depend on the order. -/
theorem agree {done' : List Nat} (one : l.AsAlone m done state) (other : l.AsAlone m done' state')
    (same : ∀ flat, flat ∈ done' ↔ flat ∈ done) :
    state.memory.AgreesOn Set.univ state'.memory ∧ state'.panicked = state.panicked := by
  refine ⟨⟨one.refilled.symm.trans other.refilled, fun x _ => ?_⟩, ?_⟩
  · by_cases written : ∃ flat ∈ done, x ∈ (l.footprint m flat).writes
    · obtain ⟨flat, listed, written⟩ := written
      rw [one.written flat listed x written, other.written flat ((same flat).mpr listed) x written]
    · have outside : ∀ flat ∈ done, x ∉ (l.footprint m flat).writes :=
        fun flat listed here => written ⟨flat, listed, here⟩
      have outside' : ∀ flat ∈ done', x ∉ (l.footprint m flat).writes :=
        fun flat listed => outside flat ((same flat).mp listed)
      rw [one.spared x outside, other.spared x outside']
  · rw [Bool.eq_iff_iff, one.panicked, other.panicked]
    exact exists_congr fun flat => and_congr_left' (same flat)

end AsAlone

/-- A workgroup that is run after others reads and writes nothing that these write. -/
theorem Independent.spares {before after : List Nat} (independent : l.Independent m)
    (nodup : (before ++ flat :: after).Nodup)
    (inRange : ∀ other ∈ before ++ flat :: after, other < l.groupCount) :
    ∀ other ∈ before, (l.footprint m other).Spares (l.footprint m flat) := by
  intro other listed
  have distinct := (List.nodup_append.mp nodup).2.2 other listed flat (.head _)
  exact independent other (inRange other (List.mem_append_left _ listed)) flat
    (inRange flat (List.mem_append_right _ (.head _))) distinct

/-- Independent workgroups do what they would have done alone. -/
theorem asAlone_runEach (independent : l.Independent m) (nodup : order.Nodup)
    (inRange : ∀ flat ∈ order, flat < l.groupCount) (reports : List Report) :
    l.AsAlone m order (l.runEach order ⟨m, reports, false⟩) := by
  induction order using List.reverseRecOn with
  | nil => exact ⟨.refl m, nofun, fun _ _ => rfl, by simp [runEach]⟩
  | append_singleton before flat ih =>
    have done := ih (List.nodup_append.mp nodup).1 fun other listed =>
      inRange other (List.mem_append_left _ listed)
    rw [runEach, List.foldl_append]
    exact done.next (independent.spares nodup inRange)

/-- Work-items of a workgroup that find what they find if it is run alone: which of them are run,
and with what. -/
structure Undisturbed (l : Launch) (m : Memory) (flat : Nat) (runs : List (WorkItem × Lane)) :
    Prop where
  /-- They are run in turn, x fastest, up to one that ends the dispatch. -/
  first : runs.map Prod.fst <+: l.items flat
  /-- If none does, all are run. -/
  whole : (l.alone m flat).panicked = false → runs.map Prod.fst = l.items flat
  /-- The segments are the same as if no other workgroup were there. -/
  segments : runs.map segments = (l.aloneStarts m flat).map segments
  /-- The same addresses are read and written. -/
  touched : l.touched runs = l.footprint m flat
  /-- The group segment holds zeros first, and then what the work-item before has left in it. -/
  group : l.HandsOver (.zero l.groupBytes) runs
  groupSize : ∀ run ∈ runs, run.2.group.size = l.groupBytes
  own : ∀ run ∈ runs, run.2.own = .zero l.privateBytes
  kernarg : ∀ run ∈ runs, run.1.kernarg = l.kernarg

/-- The work-items of a workgroup that is run after others are not disturbed by these, if it reads
nothing that they have written. -/
theorem AsAlone.undisturbed {done : List Nat} {state : LaunchState}
    (before : l.AsAlone m done state)
    (apart : ∀ other ∈ done, (l.footprint m other).Spares (l.footprint m flat)) :
    l.Undisturbed m flat (l.startsAfter state flat) := by
  have same := before.sameItems apart
  have ran := l.map_fst_starts ({ state with panicked := false }, .zero l.groupBytes) (l.items flat)
  have first : (l.startsAfter state flat).map Prod.fst <+: l.items flat :=
    ran ▸ ranItems_initial _ _
  exact {
    first
    whole := fun whole => ran.trans (ranItems_eq (same.panicked.trans whole))
    segments := same.segments
    touched := same.touched
    group := handsOver_starts (_, .zero l.groupBytes) _
    groupSize := fun run listed => (segments_of_mem_starts listed).2
    own := fun run listed => (segments_of_mem_starts listed).1
    kernarg := fun run listed => kernarg_of_mem_items (first.subset (List.mem_map_of_mem listed)) }

/-- What workgroups read and write that are run in a given order, each to its own end. -/
def footprints (l : Launch) : List Nat → LaunchState → List Footprint
  | [], _ => []
  | flat :: rest, state =>
    l.touched (l.startsAfter state flat) :: l.footprints rest (l.runToEnd state flat)

/-- Workgroups that turn out not to write what others read or write, in a run in some order, read
and write what they do alone. -/
theorem footprints_eq {done : List Nat} {state : LaunchState} (before : l.AsAlone m done state)
    (apart : ((done.map (l.footprint m)) ++ l.footprints order state).Pairwise
      fun f g => f.Spares g ∧ g.Spares f) :
    l.footprints order state = order.map (l.footprint m) := by
  induction order generalizing done state with
  | nil => rfl
  | cons flat rest ih =>
    obtain ⟨-, -, apart'⟩ := List.pairwise_append.mp apart
    have spares : ∀ other ∈ done,
        (l.footprint m other).Spares (l.touched (l.startsAfter state flat)) := by
      intro other listed
      exact (apart' _ (List.mem_map_of_mem listed) _ (.head _)).1
    -- what it reads nobody has written, so it reads the same where nobody has written anything
    have alike : l.SameItems {x | ∀ other ∈ done, x ∉ (l.footprint m other).writes} (l.items flat)
        ({ state with panicked := false }, .zero l.groupBytes)
        (⟨m, [], false⟩, .zero l.groupBytes) :=
      items_agree _ ⟨before.refilled.symm, fun x named => (before.spared x named).symm⟩ rfl rfl
        fun x read other listed written => (spares other listed x written).1 read
    have same : l.footprint m flat = l.touched (l.startsAfter state flat) := alike.touched
    rw [footprints, ← same] at apart ⊢
    rw [List.map_cons]
    refine congrArg _ (ih (before.next fun other listed => same ▸ spares other listed) ?_)
    rw [List.map_append, List.append_assoc]
    exact apart

/-- It is enough to look at one run of all workgroups, in whatever order: if none of them turns out
to write what another reads or writes, they are independent. -/
theorem independent_of_footprints {reports : List Report}
    (ho : order.Perm (List.range l.groupCount))
    (apart : (l.footprints order ⟨m, reports, false⟩).Pairwise
      fun f g => f.Spares g ∧ g.Spares f) : l.Independent m := by
  have before : l.AsAlone m [] ⟨m, reports, false⟩ :=
    ⟨.refl m, nofun, fun _ _ => rfl, by simp⟩
  rw [footprints_eq before apart, List.pairwise_map] at apart
  intro flat inRange other inRange' distinct
  have symmetric : Std.Symm fun flat other =>
      (l.footprint m flat).Spares (l.footprint m other) ∧
        (l.footprint m other).Spares (l.footprint m flat) := ⟨fun _ _ both => both.symm⟩
  exact (apart.forall (ho.mem_iff.mpr (List.mem_range.mpr inRange))
    (ho.mem_iff.mpr (List.mem_range.mpr inRange')) distinct).1

/-! ### Launches that come to their end -/

theorem runToEnd_of_running {state : LaunchState} (running : state.panicked = false) (flat : Nat) :
    l.runToEnd state flat = l.runGroup state flat := by
  obtain ⟨memory, reports, panicked⟩ := state
  cases running
  rw [runToEnd]
  exact congrArg _ (Bool.false_or _)

theorem panicked_runEach {state : LaunchState} (ended : state.panicked = true)
    (order : List Nat) : (l.runEach order state).panicked = true := by
  induction order generalizing state with
  | nil => exact ended
  | cons flat rest ih =>
    refine ih ?_
    rw [runToEnd, ended]
    rfl

/-- Whether a work-item ends the dispatch can be told from workgroups each of which is run to its
own end; if none does, they are run just as in a launch. -/
theorem runGroups_runEach (l : Launch) (order : List Nat) {state : LaunchState}
    (running : state.panicked = false) :
    (l.runGroups order state).panicked = (l.runEach order state).panicked ∧
      ((l.runEach order state).panicked = false →
        l.runGroups order state = l.runEach order state) := by
  induction order generalizing state with
  | nil => exact ⟨rfl, fun _ => rfl⟩
  | cons flat rest ih =>
    rw [runGroups, runEach, List.foldl_cons, List.foldl_cons, runToEnd_of_running running]
    cases ended : (l.runGroup state flat).panicked with
    | false => exact ih ended
    | true =>
      have stuck : (rest.foldl l.runGroup (l.runGroup state flat)).panicked = true :=
        (congrArg _ (runGroups_of_panicked ended rest)).trans ended
      have later : (rest.foldl l.runToEnd (l.runGroup state flat)).panicked = true :=
        panicked_runEach ended rest
      refine ⟨stuck.trans later.symm, fun whole => ?_⟩
      cases later.symm.trans whole

end Launch

namespace KernelDispatch

variable {d : KernelDispatch} {setup : UInt16} {info : AgentInfo} {kernels : KernelTable}
variable {memory : Memory} {l : Launch} {order : List Nat}

/-- **The outcome of a dispatch does not depend on the order in which its workgroups are run**, if
none writes what another reads or writes: memory is the same in the end, and the dispatch is ended
by a work-item or not. If it is not, this is the outcome of the launch.

Whatever the order, the work-items of a workgroup find what they find if it is run alone. All of
them have the arguments that were read in the beginning. Both segments are as large as the packet or
the kernel wants them, whichever is more. -/
theorem schedules_agree (planned : d.plan setup info kernels memory = .launch l)
    (independent : l.Independent memory) (ho : order.Perm (List.range l.groupCount))
    (reports : List Report) :
    let start : LaunchState := ⟨memory, reports, false⟩
    let natural := List.range l.groupCount
    (l.runEach natural start).memory.AgreesOn Set.univ (l.runEach order start).memory ∧
      (l.runGroups order start).panicked = (l.run memory reports).panicked ∧
      ((l.run memory reports).panicked = false →
        l.runGroups order start = l.runEach order start ∧
        l.run memory reports = l.runEach natural start) ∧
      (∀ before flat after, order = before ++ flat :: after →
        l.Undisturbed memory flat (l.startsAfter (l.runEach before start) flat)) ∧
      ∃ k, kernels.find? d.kernelObject = some k ∧ l.kernel = k ∧
        d.readKernarg k memory = .ok l.kernarg ∧
        l.groupBytes = (max d.groupSegmentSize k.groupSize).toNat ∧
        l.privateBytes = (max d.privateSegmentSize k.privateSize).toNat := by
  intro start natural
  have inRange : ∀ flat ∈ order, flat < l.groupCount := fun flat listed =>
    List.mem_range.mp (ho.mem_iff.mp listed)
  have nodup : order.Nodup := ho.nodup_iff.mpr List.nodup_range
  have one := Launch.asAlone_runEach independent List.nodup_range
    (fun flat => List.mem_range.mp) reports
  have other := Launch.asAlone_runEach independent nodup inRange reports
  obtain ⟨memories, panicked⟩ := one.agree other fun flat => ho.mem_iff
  have running : start.panicked = false := rfl
  obtain ⟨ends, same⟩ := l.runGroups_runEach order running
  obtain ⟨ends', same'⟩ := l.runGroups_runEach natural running
  refine ⟨memories, ends.trans (panicked.trans ends'.symm), fun running => ?_, ?_, ?_⟩
  · have whole : (l.runEach natural start).panicked = false := ends'.symm.trans running
    exact ⟨same (panicked.trans whole), same' whole⟩
  · rintro before flat after rfl
    have done := Launch.asAlone_runEach independent (List.nodup_append.mp nodup).1
      (fun other listed => inRange other (List.mem_append_left _ listed)) reports
    exact done.undisturbed (independent.spares nodup inRange)
  · obtain ⟨k, kernarg, known, arguments, rfl⟩ := launch_of_plan planned
    exact ⟨k, known, rfl, arguments, rfl, rfl⟩

/-- Each work-item counts itself in the group segment, and stores the count behind `0x1000` at the
number of its workgroup. -/
def counting : Kernel :=
  (Kernel.ofEntry "counting" fun item =>
    .readScratch .group 0 1 fun bs =>
      let count := [bs.headD 0 + 1]
      .writeScratch .group 0 count
        (.store (0x1000 + item.groupId.x.toUInt64) count fun _ => .done ())).withGroupSegment 1

/-- Two workgroups of two work-items. -/
def twoGroups : KernelDispatch :=
  { header := 0, setup := 1, workgroup := ⟨2, 1, 1⟩, reserved0 := 0, grid := ⟨4, 1, 1⟩
    privateSegmentSize := 0, groupSegmentSize := 0, kernelObject := 0x1000, kernargAddress := 0
    reserved2 := 0, completionSignal := 0 }

/-- An allocation of sixteen bytes at `0x1000`. -/
def sixteenBytes : Memory :=
  { Memory.empty with
    allocations := [(0x1000, ⟨16, .ofParts 0 1, none, .readWrite, .application⟩)] }

theorem schedules_agree_counting : ∃ l,
    twoGroups.plan 1 Config.gpu [(0x1000, counting)] sixteenBytes = .launch l ∧
      l.Independent sixteenBytes ∧ [1, 0].Perm (List.range l.groupCount) ∧
      (l.run sixteenBytes []).memory.AgreesOn Set.univ
        (l.runGroups [1, 0] ⟨sixteenBytes, [], false⟩).memory := by
  have planned : twoGroups.plan 1 Config.gpu [(0x1000, counting)] sixteenBytes =
    .launch (twoGroups.launchOf counting []) := rfl
  have independent : (twoGroups.launchOf counting []).Independent sixteenBytes := by decide
  have order : [1, 0].Perm (List.range (twoGroups.launchOf counting []).groupCount) := by decide
  obtain ⟨memories, -, whole, -⟩ := schedules_agree planned independent order []
  obtain ⟨permuted, natural⟩ := whole rfl
  refine ⟨_, planned, independent, order, ?_⟩
  rw [permuted, natural]
  exact memories

end KernelDispatch

end Accelerator
