import Accelerator.Kernel.Dispatch
import Accelerator.Proofs.Grid.Execution

/-!
# Which dispatches are admitted

A kernel dispatch with work-items is to be refused for any of six reasons: it names no dimensions,
or no kernel; its workgroup, or its grid, is larger than the agent allows; or its kernel has
arguments, and their address is misaligned or cannot be read.

The checks are made in order, and those of the sizes multiply words. Before a product that does not
fit its word can be compared with the limit, which it exceeds, there is no answer at all. All other
dispatches are refused exactly if one of the reasons holds, and come to a launch that covers its
grid otherwise.

## Why overflow is no seventh reason

A dispatch whose product does not fit is larger than any agent allows, so it is `Unfit` already.
What is wrong with it is not the verdict but that there is none. `Plan` therefore has a case of its
own for it, and `Overflows` follows the order of the checks: the product of the workgroup is formed
first, in 32 bits, and that of the grid, in 64 bits, only when the workgroup is within its limits.

## Main definitions

* `KernelDispatch.Unfit`: one of the reasons holds.
* `KernelDispatch.Overflows`: a product does not fit its word.

## Main results

* `KernelDispatch.Overflows.unfit`: a dispatch with such a product is larger than any agent allows.
* `KernelDispatch.plan_spec`: what a dispatch with work-items comes to.
* `KernelDispatch.covers_launchOf`: the launch of a dispatch that is not refused covers its grid.
-/

namespace Accelerator

namespace KernelDispatch

variable {d : KernelDispatch} {setup : UInt16} {info : AgentInfo} {kernels : KernelTable}
variable {memory : Memory} {k : Kernel} {kernarg : List UInt8}

/-- The number of work-items of a workgroup. -/
def workgroupVolume (d : KernelDispatch) : Nat :=
  d.workgroup.x.toNat * d.workgroup.y.toNat * d.workgroup.z.toNat

/-- The number of work-items of the grid. -/
def gridVolume (d : KernelDispatch) : Nat :=
  d.grid.x.toNat * d.grid.y.toNat * d.grid.z.toNat

/-- The workgroup is larger than an agent allows, in some dimension or as a whole. -/
def ExceedsWorkgroup (d : KernelDispatch) (info : AgentInfo) : Prop :=
  info.workgroupMaxDim.x < d.workgroup.x ∨ info.workgroupMaxDim.y < d.workgroup.y ∨
    info.workgroupMaxDim.z < d.workgroup.z ∨ info.workgroupMaxSize.toNat < d.workgroupVolume

/-- The grid is larger than an agent allows, in some dimension or as a whole. -/
def ExceedsGrid (d : KernelDispatch) (info : AgentInfo) : Prop :=
  info.gridMaxDim.x < d.grid.x ∨ info.gridMaxDim.y < d.grid.y ∨
    info.gridMaxDim.z < d.grid.z ∨ info.gridMaxSize.toNat < d.gridVolume

/-- The kernel has arguments, which cannot be read. -/
def LacksKernarg (d : KernelDispatch) (k : Kernel) (memory : Memory) : Prop :=
  k.kernargSize ≠ 0 ∧ (d.kernargAddress.toNat % k.kernargAlignment.toNat ≠ 0 ∨
    memory.readBytes? d.kernargAddress k.kernargSize.toUInt64 = none)

instance : Decidable (d.ExceedsWorkgroup info) :=
  inferInstanceAs (Decidable (_ ∨ _ ∨ _ ∨ _))

instance : Decidable (d.ExceedsGrid info) :=
  inferInstanceAs (Decidable (_ ∨ _ ∨ _ ∨ _))

/-- A dispatch that an agent should not run. -/
def Unfit (d : KernelDispatch) (setup : UInt16) (info : AgentInfo) (kernels : KernelTable)
    (memory : Memory) : Prop :=
  dimensionsOfSetup setup = 0 ∨ kernels.find? d.kernelObject = none ∨
    d.ExceedsWorkgroup info ∨ d.ExceedsGrid info ∨
    ∃ k, kernels.find? d.kernelObject = some k ∧ d.LacksKernarg k memory

/-- A dispatch whose checks get as far as a product that does not fit its word. -/
def Overflows (d : KernelDispatch) (setup : UInt16) (info : AgentInfo) (kernels : KernelTable) :
    Prop :=
  dimensionsOfSetup setup ≠ 0 ∧ kernels.find? d.kernelObject ≠ none ∧
    (2 ^ 32 ≤ d.workgroupVolume ∨ ¬ d.ExceedsWorkgroup info ∧ 2 ^ 64 ≤ d.gridVolume)

/-- A product that does not fit its word exceeds every limit of an agent. -/
theorem Overflows.unfit (h : d.Overflows setup info kernels) :
    d.Unfit setup info kernels memory := by
  obtain ⟨-, -, group | ⟨-, grid⟩⟩ := h
  · have limit := info.workgroupMaxSize.toNat_lt
    exact .inr (.inr (.inl (.inr (.inr (.inr (limit.trans_le group))))))
  · have limit := info.gridMaxSize.toNat_lt
    exact .inr (.inr (.inr (.inl (.inr (.inr (.inr (limit.trans_le grid)))))))

/-! ### The checks -/

theorem exceedsWorkgroup?_eq_none :
    d.exceedsWorkgroup? info = none ↔ 2 ^ 32 ≤ d.workgroupVolume := by
  rw [exceedsWorkgroup?]
  change (if 2 ^ 32 ≤ d.workgroupVolume then none else some _) = none ↔ _
  simp only [ite_eq_left_iff, reduceCtorEq, imp_false, not_not]

theorem exceedsWorkgroup?_eq_some {b : Bool} (h : d.exceedsWorkgroup? info = some b) :
    d.workgroupVolume < 2 ^ 32 ∧ (b = true ↔ d.ExceedsWorkgroup info) := by
  rw [exceedsWorkgroup?] at h
  change (if 2 ^ 32 ≤ d.workgroupVolume then none else some _) = some b at h
  split at h
  case isTrue => cases h
  case isFalse small =>
    cases h
    refine ⟨not_le.mp small, ?_⟩
    change (decide (info.workgroupMaxSize.toNat < d.workgroupVolume) || _) = true ↔ _
    simp only [Bool.or_eq_true, decide_eq_true_eq, Dim3.any, Dim3.zipWith, id, ExceedsWorkgroup]
    tauto

theorem exceedsGrid?_eq_none : d.exceedsGrid? info = none ↔ 2 ^ 64 ≤ d.gridVolume := by
  rw [exceedsGrid?]
  change (if 2 ^ 64 ≤ d.gridVolume then none else some _) = none ↔ _
  simp only [ite_eq_left_iff, reduceCtorEq, imp_false, not_not]

theorem exceedsGrid?_eq_some {b : Bool} (h : d.exceedsGrid? info = some b) :
    d.gridVolume < 2 ^ 64 ∧ (b = true ↔ d.ExceedsGrid info) := by
  rw [exceedsGrid?] at h
  change (if 2 ^ 64 ≤ d.gridVolume then none else some _) = some b at h
  split at h
  case isTrue => cases h
  case isFalse small =>
    cases h
    refine ⟨not_le.mp small, ?_⟩
    change (decide (info.gridMaxSize.toNat < d.gridVolume) || _) = true ↔ _
    simp only [Bool.or_eq_true, decide_eq_true_eq, Dim3.any, Dim3.zipWith, id, ExceedsGrid]
    tauto

theorem readKernarg_eq_ok (h : d.readKernarg k memory = .ok kernarg) :
    ¬ d.LacksKernarg k memory := by
  rintro ⟨nonempty, bad⟩
  rw [readKernarg, if_neg nonempty] at h
  split at h
  case isTrue => cases h
  case isFalse aligned =>
    rw [bad.resolve_left aligned] at h
    cases h

theorem readKernarg_eq_error {cause : PacketFault} (h : d.readKernarg k memory = .error cause) :
    d.LacksKernarg k memory := by
  rw [readKernarg] at h
  split at h
  case isTrue => cases h
  case isFalse nonempty =>
    refine ⟨nonempty, ?_⟩
    split at h
    case isTrue misaligned => exact .inl misaligned
    case isFalse =>
      split at h
      · cases h
      · exact .inr ‹_›

/-! ### What a dispatch comes to -/

/-- What a dispatch with work-items comes to, and when. -/
inductive Plan (d : KernelDispatch) (setup : UInt16) (info : AgentInfo) (kernels : KernelTable)
    (memory : Memory) : DispatchPlan → Prop where
  | refused {cause : PacketFault} (unfit : d.Unfit setup info kernels memory)
      (fits : ¬ d.Overflows setup info kernels) : Plan d setup info kernels memory (.refused cause)
  | overflow (overflows : d.Overflows setup info kernels) :
      Plan d setup info kernels memory .overflow
  | launch {k : Kernel} {kernarg : List UInt8} (fit : ¬ d.Unfit setup info kernels memory)
      (known : kernels.find? d.kernelObject = some k)
      (arguments : d.readKernarg k memory = .ok kernarg) (grid : d.gridVolume < 2 ^ 64) :
      Plan d setup info kernels memory (.launch (d.launchOf k kernarg))

theorem plan_spec (nonempty : d.isEmpty = false) :
    d.Plan setup info kernels memory (d.plan setup info kernels memory) := by
  rw [plan, if_neg (Bool.eq_false_iff.mp nonempty)]
  by_cases dims : dimensionsOfSetup setup = 0
  · rw [if_pos dims]
    exact .refused (.inl dims) fun large => large.1 dims
  rw [if_neg dims]
  cases known : kernels.find? d.kernelObject with
  | none => exact .refused (.inr (.inl known)) fun large => large.2.1 known
  | some k =>
    have named : kernels.find? d.kernelObject ≠ none := by rw [known]; exact Option.some_ne_none k
    dsimp only
    cases group : d.exceedsWorkgroup? info with
    | none => exact .overflow ⟨dims, named, .inl (exceedsWorkgroup?_eq_none.mp group)⟩
    | some b =>
      obtain ⟨smallGroup, exceedsGroup⟩ := exceedsWorkgroup?_eq_some group
      cases b with
      | true =>
        have wide := exceedsGroup.mp rfl
        refine .refused (.inr (.inr (.inl wide))) fun overflows => ?_
        rcases overflows.2.2 with large | ⟨narrow, -⟩
        · exact absurd smallGroup (not_lt.mpr large)
        · exact narrow wide
      | false =>
        have narrow : ¬ d.ExceedsWorkgroup info := fun wide => nomatch exceedsGroup.mpr wide
        dsimp only
        cases grid : d.exceedsGrid? info with
        | none => exact .overflow ⟨dims, named, .inr ⟨narrow, exceedsGrid?_eq_none.mp grid⟩⟩
        | some b =>
          obtain ⟨smallGrid, exceedsGrid⟩ := exceedsGrid?_eq_some grid
          have fits : ¬ d.Overflows setup info kernels := fun overflows => by
            rcases overflows.2.2 with large | ⟨-, large⟩
            · exact absurd smallGroup (not_lt.mpr large)
            · exact absurd smallGrid (not_lt.mpr large)
          cases b with
          | true => exact .refused (.inr (.inr (.inr (.inl (exceedsGrid.mp rfl))))) fits
          | false =>
            dsimp only
            cases arguments : d.readKernarg k memory with
            | error cause =>
              exact .refused (.inr (.inr (.inr (.inr ⟨k, known, readKernarg_eq_error arguments⟩))))
                fits
            | ok kernarg =>
              refine .launch ?_ known arguments smallGrid
              rintro (none | unknown | wide | wide | ⟨other, same, lacks⟩)
              · exact dims none
              · exact named unknown
              · exact narrow wide
              · exact nomatch exceedsGrid.mpr wide
              · obtain rfl : k = other := Option.some.inj (known.symm.trans same)
                exact readKernarg_eq_ok arguments lacks

/-- What is launched is the kernel that the packet names, with its arguments as they are found. -/
theorem launch_of_plan {l : Launch} (planned : d.plan setup info kernels memory = .launch l) :
    ∃ k kernarg, kernels.find? d.kernelObject = some k ∧ d.readKernarg k memory = .ok kernarg ∧
      l = d.launchOf k kernarg := by
  have nonempty : d.isEmpty = false := by
    refine Bool.eq_false_iff.mpr fun empty => ?_
    rw [plan, if_pos empty] at planned
    cases planned
  have spec : d.Plan setup info kernels memory (d.plan setup info kernels memory) :=
    plan_spec nonempty
  rw [planned] at spec
  cases spec with
  | launch _ known arguments => exact ⟨_, _, known, arguments, rfl⟩

theorem find?_of_plan {l : Launch} (planned : d.plan setup info kernels memory = .launch l) :
    kernels.find? d.kernelObject = some l.kernel := by
  obtain ⟨k, kernarg, known, -, rfl⟩ := launch_of_plan planned
  exact known

/-- The launch of a dispatch that is not refused runs its kernel for every point of the grid, and
comes to its end, if the kernel returns. -/
theorem covers_launchOf (kernarg : List UInt8) (nonempty : d.isEmpty = false)
    (grid : d.gridVolume < 2 ^ 64) (returns : k.Returns) (state : LaunchState)
    (running : state.panicked = false) :
    let l := d.launchOf k kernarg
    (l.runGroups (List.range l.groupCount) state).panicked = false ∧
      l.Covers (l.ranGroups (List.range l.groupCount) state) := by
  have proper : (d.launchOf k kernarg).Proper := by
    simp only [isEmpty, Bool.or_eq_false_iff] at nonempty
    exact ⟨nonempty.1, nonempty.2⟩
  have ended : ((d.launchOf k kernarg).runGroups (List.range (d.launchOf k kernarg).groupCount)
      state).panicked = false := Launch.panicked_runGroups returns running _
  refine ⟨ended, ?_⟩
  rw [Launch.ranGroups_eq ended]
  exact Launch.covers_items proper grid (.refl _)

end KernelDispatch

end Accelerator
