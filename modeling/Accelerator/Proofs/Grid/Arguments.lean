import Accelerator.Proofs.Accounts.Copies
import Accelerator.Proofs.Grid.Schedules
import Accelerator.Proofs.Processor.Dispatch

/-!
# Arguments on their way to work-items

The application packs values, writes the segment to memory, and names its address in a packet. The
command processor reads the segment once, when it comes to the packet, and every work-item gets the
bytes as they were then. So a work-item reads the packed values, whatever other work-items have
written to memory in the meantime, to the segment or elsewhere, and however far others have read:
each starts at the beginning, and may read some values now and the others later.

A kernel without arguments has no segment. Its dispatches do not depend on memory at all, nor on the
address that the packet gives.

## What may happen on the way

Between the writing of the segment and the dispatch anything may happen to memory as long as the
segment is still there when the processor comes to the packet. Nothing is asked about who wrote
where, or about the queue. After that nothing is asked at all, because the launch has a copy.

Each leg of the way is one lemma: written, fetched, planned, launched, read. The theorem puts them
one behind the other.

## Main definitions

* `KernelDispatch.FitsAgent`: what is checked of a dispatch besides its kernel and arguments.
* `KernelDispatch.Fetches`: a dispatch of a kernel with a segment of some size at some address.
* `WorkItem.Receives`: a work-item that reads certain values.

## Main results

* `KernelDispatch.plan_eq_launch`: a dispatch that fits comes to a launch with its arguments.
* `KernelDispatch.plan_of_no_kernarg`: a kernel without arguments is launched whatever memory holds.
* `Session.kernargs_arrive`: from the application to all work-items.
-/

namespace Accelerator

open Kernarg (Builder Reader Value)

/-! ### Planning a dispatch -/

namespace KernelDispatch

variable {d : KernelDispatch} {setup : UInt16} {info : AgentInfo} {kernels : KernelTable}
variable {memory : Memory} {k : Kernel} {kernarg : List UInt8}

/-- A dispatch with work-items that has dimensions and stays within the limits of an agent. -/
structure FitsAgent (d : KernelDispatch) (setup : UInt16) (info : AgentInfo) : Prop where
  nonempty : d.isEmpty = false
  dimensions : dimensionsOfSetup setup ≠ 0
  workgroup : ¬ d.ExceedsWorkgroup info
  grid : ¬ d.ExceedsGrid info

/-- A dispatch that fits comes to a launch of its kernel with its arguments, if they can be read. -/
theorem plan_eq_launch (fits : d.FitsAgent setup info)
    (known : kernels.find? d.kernelObject = some k)
    (arguments : d.readKernarg k memory = .ok kernarg) :
    d.plan setup info kernels memory = .launch (d.launchOf k kernarg) := by
  have fit : ¬ d.Unfit setup info kernels memory := by
    rintro (dims | unknown | wide | wide | ⟨other, same, lacks⟩)
    · exact fits.dimensions dims
    · cases known.symm.trans unknown
    · exact fits.workgroup wide
    · exact fits.grid wide
    · obtain rfl := Option.some.inj (known.symm.trans same)
      exact readKernarg_eq_ok arguments lacks
  have spec : d.Plan setup info kernels memory (d.plan setup info kernels memory) :=
    plan_spec fits.nonempty
  generalize d.plan setup info kernels memory = plan at spec
  cases spec with
  | refused unfit => exact absurd unfit fit
  | overflow overflows => exact absurd overflows.unfit fit
  | launch _ known' arguments' =>
    obtain rfl := Option.some.inj (known.symm.trans known')
    rw [Except.ok.inj (arguments.symm.trans arguments')]

theorem FitsAgent.gridVolume_lt (fits : d.FitsAgent setup info) : d.gridVolume < 2 ^ 64 := by
  have limit := info.gridMaxSize.toNat_lt
  have within : ¬ info.gridMaxSize.toNat < d.gridVolume := fun wide =>
    fits.grid (.inr (.inr (.inr wide)))
  omega

/-- Nothing is read for a kernel without arguments. -/
theorem readKernarg_of_size_zero (none : k.kernargSize = 0) : d.readKernarg k memory = .ok [] :=
  if_pos none

/-- What a dispatch of a kernel without arguments comes to depends neither on memory nor on the
address that it gives for arguments. -/
theorem plan_of_no_kernarg (known : kernels.find? d.kernelObject = some k)
    (none : k.kernargSize = 0) (address : UInt64) (memory memory' : Memory) :
    { d with kernargAddress := address }.plan setup info kernels memory' =
      d.plan setup info kernels memory := by
  rw [plan, plan]
  simp only [known, readKernarg_of_size_zero none]
  rfl

/-- A dispatch of a kernel whose argument segment has a certain size, with the address of the
segment at a multiple of the kernel's alignment. -/
structure Fetches (d : KernelDispatch) (k : Kernel) (kernels : KernelTable) (address : UInt64)
    (size : Nat) : Prop where
  known : kernels.find? d.kernelObject = some k
  place : d.kernargAddress = address
  size : k.kernargSize.toNat = size
  aligned : k.kernargAlignment.toNat ∣ address.toNat

/-- A dispatch gets the bytes of its segment. -/
theorem Fetches.readKernarg {address : UInt64}
    (fetches : d.Fetches k kernels address kernarg.length)
    (held : memory.readBytes? address (.ofNat kernarg.length) = some kernarg) :
    d.readKernarg k memory = .ok kernarg := by
  have aligned : ¬ address.toNat % k.kernargAlignment.toNat ≠ 0 :=
    not_not.mpr (Nat.mod_eq_zero_of_dvd fetches.aligned)
  have size : k.kernargSize.toUInt64 = .ofNat kernarg.length := by
    rw [← fetches.size]
    exact (UInt64.ofNat_uInt32ToNat _).symm
  rw [KernelDispatch.readKernarg]
  split
  case isTrue empty =>
    have length := fetches.size
    rw [empty, UInt32.toNat_zero] at length
    rw [List.eq_nil_of_length_eq_zero length.symm]
  case isFalse =>
    rw [fetches.place, if_neg aligned, size, held]

end KernelDispatch

/-! ### What work-items read -/

/-- A work-item whose reader gets certain values: all at once, up to the end of the segment, or some
first and the others later. -/
structure WorkItem.Receives (item : WorkItem) (values : List Value) : Prop where
  whole : (Reader.ofSegment item.kernarg).readAll (values.map Value.kind) =
    (values, none, ⟨item.kernarg, item.kernarg.length⟩)
  parts : ∀ first second, values = first ++ second → ∃ between : Reader,
    (Reader.ofSegment item.kernarg).readAll (first.map Value.kind) = (first, none, between) ∧
      between.readAll (second.map Value.kind) =
        (second, none, ⟨item.kernarg, item.kernarg.length⟩)

theorem WorkItem.receives_of_kernarg {item : WorkItem} {values : List Value}
    (packed : item.kernarg = Builder.pack values) : item.Receives values := by
  have whole : (Reader.ofSegment item.kernarg).readAll (values.map Value.kind) =
      (values, none, ⟨item.kernarg, item.kernarg.length⟩) := packed ▸ Builder.readAll_pack values
  refine ⟨whole, fun first second cut => ?_⟩
  subst cut
  exact Reader.readAll_parts whole

/-- All work-items that are run have the arguments of the launch, whatever was done to memory before
them, by work-items of the launch or by others. -/
theorem Launch.kernarg_of_mem_ranGroups {l : Launch} {order : List Nat} {state : LaunchState}
    {item : WorkItem} (ran : item ∈ l.ranGroups order state) : item.kernarg = l.kernarg := by
  have listed := (Launch.ranGroups_initial order state).subset ran
  obtain ⟨flat, -, listed⟩ := List.mem_flatMap.mp listed
  exact Launch.kernarg_of_mem_items listed

/-! ### From the application to work-items -/

namespace Session

open Accelerator.Action

variable {s t u : Session} {address : UInt64} {bs : List UInt8}

/-- What the application wrote is in memory. -/
theorem readBytes?_of_writeMemory (small : bs.length < 2 ^ 64)
    (written : writeMemory address bs s = (.ok (), t)) :
    t.memory.readBytes? address (.ofNat bs.length) = some bs := by
  have isOpen : s.isOpen = true := by
    obtain ⟨_, _, opened, -⟩ := bind_eq_ok.mp written
    exact (ensureOpen_eq_ok.mp opened).1
  rw [writeMemory_eq isOpen] at written
  split at written
  case isFalse => cases written
  case isTrue allowed =>
    cases written
    have allowed' :
        (s.memory.overwrite address bs).isAccessible address (.ofNat bs.length) = true :=
      allowed
    rw [Memory.readBytes?, if_pos allowed', UInt64.toNat_ofNat_of_lt' (by exact small)]
    exact congrArg some (Contents.read_write_self bs s.memory.contents address small.le)

/-- **Arguments arrive as they were packed.** The application writes packed values to an address,
and a packet dispatches a kernel with a segment of that size there, at a multiple of the kernel's
alignment, while memory still holds the segment. If the dispatch is within the limits of its agent,
the kernel is launched with the segment. Whatever a command processor launches for the packet is
that launch, and a kernel that returns is then run for every point of the grid. Every work-item for
which it is run, in whatever order and whatever the others have written to memory, reads the values
that were packed. A kernel without arguments does without memory and without an address: its
dispatch is launched without arguments, and what it comes to is the same for every memory and every
address. -/
theorem kernargs_arrive {values : List Value}
    (written : writeMemory address (Builder.pack values) s = (.ok (), t))
    (kept : u.memory.readBytes? address (.ofNat (Builder.pack values).length) =
      t.memory.readBytes? address (.ofNat (Builder.pack values).length))
    {d : KernelDispatch} {k : Kernel}
    (fetches : d.Fetches k u.kernels address (Builder.pack values).length) :
    let l := d.launchOf k (Builder.pack values)
    (∀ setup info, d.FitsAgent setup info → d.plan setup info u.kernels u.memory = .launch l) ∧
    (∀ q p deeds v index l', u.Move q p deeds v → .ran index l' ∈ deeds →
      (q.ring.read index).dispatch = d → l' = l) ∧
    (∀ q p a, u.FindsDispatch q p a → (q.ring.read p.index).dispatch = d →
      d.FitsAgent (companionOfWord (q.ring.word p.index)) a.info → k.Returns →
        u.Completes q p [.ran p.index l] (q.ring.read p.index).completion? ∧
        l.Covers (l.ranGroups (List.range l.groupCount) ⟨u.memory, u.reports, false⟩)) ∧
    (∀ order state, ∀ item ∈ l.ranGroups order state, item.Receives values) ∧
    ∀ (d' : KernelDispatch) (k' : Kernel), k'.kernargSize = 0 → ∀ setup info kernels,
      kernels.find? d'.kernelObject = some k' →
        (d'.FitsAgent setup info → ∀ memory,
          d'.plan setup info kernels memory = .launch (d'.launchOf k' [])) ∧
        ∀ address memory memory',
          { d' with kernargAddress := address }.plan setup info kernels memory' =
            d'.plan setup info kernels memory := by
  have small : (Builder.pack values).length < 2 ^ 64 := by
    have := k.kernargSize.toNat_lt
    have := fetches.size
    omega
  have arguments := fetches.readKernarg (kept.trans (readBytes?_of_writeMemory small written))
  intro l
  have plans : ∀ setup info, d.FitsAgent setup info →
      d.plan setup info u.kernels u.memory = .launch l :=
    fun setup info fits => KernelDispatch.plan_eq_launch fits fetches.known arguments
  refine ⟨plans, ?_, ?_, ?_, ?_⟩
  · intro q p deeds v index l' move ran same
    obtain ⟨a, -, planned⟩ := (move.launches ran).planned
    rw [same] at planned
    obtain ⟨k', kernarg, known, arguments', rfl⟩ := KernelDispatch.launch_of_plan planned
    obtain rfl := Option.some.inj (fetches.known.symm.trans known)
    rw [Except.ok.inj (arguments'.symm.trans arguments)]
  · intro q p a finds same fits returns
    have covered := KernelDispatch.covers_launchOf (Builder.pack values) fits.nonempty
      fits.gridVolume_lt returns ⟨u.memory, u.reports, false⟩ rfl
    have planned : u.planOf q p.index (q.ring.word p.index) a = .launch l := by
      rw [planOf, same, plans _ _ fits]
    exact ⟨finds.completes_launch planned covered.1, covered.2⟩
  · intro order state item ran
    exact WorkItem.receives_of_kernarg (Launch.kernarg_of_mem_ranGroups ran)
  · intro d' k' none setup info kernels known
    refine ⟨fun fits memory => ?_, fun address memory memory' => ?_⟩
    · exact KernelDispatch.plan_eq_launch fits known (KernelDispatch.readKernarg_of_size_zero none)
    · exact KernelDispatch.plan_of_no_kernarg known none address memory memory'

/-- A kernel whose work-items all set their arguments in memory to zeros. -/
def erasing : Kernel :=
  (Kernel.ofEntry "erase" fun _ =>
    .store 0x7f0000000000 (List.replicate 12 0) fun _ => .done ()).withKernarg 12 8

/-- A dispatch of two workgroups of two work-items of the first kernel that was frozen. -/
def erasure : KernelDispatch where
  header := 0
  setup := 1
  workgroup := ⟨2, 1, 1⟩
  reserved0 := 0
  grid := ⟨4, 1, 1⟩
  privateSegmentSize := 0
  groupSegmentSize := 0
  kernelObject := firstKernelObject
  kernargAddress := 0x7f0000000000
  reserved2 := 0
  completionSignal := 0

/-- Work-items that erase their arguments in memory read them all the same. -/
theorem kernargs_arrive_erased : ∃ s t l, s.Hosted ∧
    writeMemory 0x7f0000000000 (Builder.pack [.u64 1, .u32 2]) s = (.ok (), t) ∧
    erasure.plan 1 Config.gpu t.kernels t.memory = .launch l ∧ l.kernel = erasing ∧
    ∀ order state, ∀ item ∈ l.ranGroups order state, item.Receives [.u64 1, .u32 2] := by
  have opened : Ascending (.ofConfig .default) := .opened (c := .default) rfl
  have created := opened.step (.lasting (o := .createExecutable)
    ⟨by decide, by decide, by decide⟩ ⟨nofun, nofun⟩)
  have loaded := created.step
    (.lasting (o := .loadCode (.ofParts 0 1) (.ofParts 1 1) ⟨"aql-sim", [erasing]⟩)
      ⟨by decide, by decide, by decide⟩ ⟨nofun, nofun⟩)
  have frozen := loaded.step (.lasting (o := .freezeExecutable (.ofParts 0 1))
    ⟨by decide, by decide, by decide⟩ ⟨nofun, nofun⟩)
  have allocated := frozen.step (.lasting (o := .allocate (.ofParts 0 1) 5000)
    ⟨by decide, by decide, by decide⟩ ⟨nofun, nofun⟩)
  obtain ⟨s, hosted, t, written, fetches⟩ : ∃ s : Session, s.Hosted ∧ ∃ t,
      writeMemory 0x7f0000000000 (Builder.pack [.u64 1, .u32 2]) s = (.ok (), t) ∧
      erasure.Fetches erasing t.kernels 0x7f0000000000
        (Builder.pack [.u64 1, .u32 2]).length :=
    ⟨_, allocated.hosted, _, rfl, rfl, rfl, by decide, by decide⟩
  have fits : erasure.FitsAgent 1 Config.gpu :=
    ⟨by decide, by decide, by decide, by decide⟩
  obtain ⟨launched, -, -, received, -⟩ := kernargs_arrive written rfl fetches
  exact ⟨s, t, _, hosted, written, launched 1 Config.gpu fits, rfl, received⟩

end Session

end Accelerator
