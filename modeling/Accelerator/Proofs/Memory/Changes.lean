import Accelerator.Proofs.Memory.Access

/-!
# How the memory map changes

Blocks come from the host, which must not hand out what is handed out already: its blocks lie apart
from all allocations, and within the addresses. Then allocations lie apart, and in order, whatever
is handed out, taken back, given to agents or registered.

A host with ascending blocks is such a host. Its next block starts behind all blocks that it has
handed out, so behind all allocations, which are among them.

## Soundness is asked of the next block only

`HostSound` says nothing about what the host will do later. A host may be replaced by another
between two steps, and what is asked is asked again at each step. For the host that the library has,
soundness follows from an invariant (`Memory.Ascends`): that no allocation passes the frontier
behind which the next block starts. The blocks that the application takes for itself move the
frontier too, although the map does not hold them.

## Main definitions

* `Memory.HostSound`: the host hands out blocks that lie apart from the allocations.
* `Memory.Change`: what may happen to a map.
* `Memory.Ascends`: the blocks of a map come from a host with ascending blocks.

## Main results

* `Memory.WellFormed.perm_free`, `Memory.perm_insertAllocation`: what a change leaves on the list of
  allocations.
* `Memory.Change.wellFormed`: maps stay well-formed.
* `Memory.Ascends.hostSound`, `Memory.Change.ascends`: ascending blocks lie apart.
-/

namespace Accelerator

namespace Memory

variable {m n : Memory} {address : UInt64}

/-! ### Handing out blocks -/

/-- The blocks that the host may hand out next do not start at address 0, end before the last
address, and share no byte with an allocation. -/
def HostSound (m : Memory) : Prop :=
  ∀ size alignment start host, m.host.allocate? size alignment = some (start, host) →
    start ≠ 0 ∧ start.toNat + max size 1 < 2 ^ 64 ∧
      ∀ entry ∈ m.allocations,
        Disjoint (Set.Ico start.toNat (start.toNat + max size 1)) (span entry.1 entry.2.size)

/-- Rounding up does not make a size smaller. -/
theorem roundedSize_ne_zero {info : RegionInfo} {size rounded : UInt64}
    (positive : size ≠ 0) (fits : info.roundedSize size = some rounded) : rounded ≠ 0 := by
  obtain ⟨sum, added, rfl⟩ := Option.map_eq_some_iff.mp fits
  rw [Word.add?_eq_some] at added
  have length := toNat_pos_of_ne_zero positive
  generalize grain : max info.granule 1 = granule at added
  have below : 1 ≤ granule := by
    rw [← grain]
    change 1 ≤ if info.granule ≤ 1 then 1 else info.granule
    split
    · exact UInt64.le_refl 1
    case isFalse more => exact UInt64.le_of_lt (UInt64.not_le.mp more)
  have one : 1 ≤ granule.toNat := UInt64.le_iff_toNat_le.mp below
  have granules : 0 < sum.toNat / granule.toNat := by
    refine Nat.div_pos ?_ one
    rw [added, UInt64.toNat_sub_of_le _ _ below]
    change _ ≤ _ + (_ - 1)
    omega
  intro zero
  have product := congrArg UInt64.toNat zero
  have small : sum.toNat / granule.toNat * granule.toNat < 2 ^ 64 :=
    (Nat.div_mul_le_self _ _).trans_lt sum.toNat_lt
  rw [UInt64.toNat_mul, UInt64.toNat_div, Nat.mod_eq_of_lt small] at product
  exact (Nat.mul_pos granules one).ne' product

theorem plan_eq_ok {r : Region} {size rounded : UInt64} (planned : plan r size = .ok rounded) :
    size ≠ 0 ∧ r.info.roundedSize size = some rounded ∧ r.canReserve rounded = true := by
  rw [plan] at planned
  split at planned
  · cases planned
  case isFalse positive =>
    split at planned
    · cases planned
    · split at planned
      · cases planned
      · split at planned
        · cases planned
        case h_2 sum fits =>
          split at planned
          case isTrue room =>
            cases planned
            exact ⟨positive, fits, room⟩
          case isFalse => cases planned

theorem allocate_eq_ok {r : Region} {size alignment start rounded : UInt64} {usage : AllocationUse}
    (taken : m.allocate r size alignment usage = .ok (start, rounded, n)) :
    plan r size = .ok rounded ∧ ∃ host,
      m.host.allocate? rounded.toNat (max alignment r.info.alignment).toNat = some (start, host) ∧
      n = { m with
        contents := m.contents.clear start rounded
        host
        allocations := insertAllocation start ⟨rounded, r.handle, r.owners.head?, .readWrite, usage⟩
          m.allocations } := by
  rw [allocate] at taken
  cases planned : plan r size with
  | error cause =>
    rw [planned] at taken
    cases taken
  | ok granted =>
    rw [planned] at taken
    dsimp only [bind, Except.bind] at taken
    split at taken
    · cases taken
    case h_2 served =>
      cases taken
      exact ⟨rfl, _, served, rfl⟩

theorem perm_insertAllocation (start : UInt64) (a : Allocation)
    (entries : List (UInt64 × Allocation)) :
    (insertAllocation start a entries).Perm ((start, a) :: entries) := by
  induction entries with
  | nil => exact .refl _
  | cons entry rest ih =>
    rw [insertAllocation]
    split
    · exact .refl _
    · exact (ih.cons entry).trans (.swap _ _ _)

/-- A block that lies apart from all others finds its place among them. -/
theorem ordered_insertAllocation {start : UInt64} {a : Allocation}
    {entries : List (UInt64 × Allocation)} (ordered : entries.Pairwise Before)
    (apart : ∀ entry ∈ entries, Before (start, a) entry ∨ Before entry (start, a))
    (placed : ∀ entry ∈ entries, Placed entry) (new : Placed (start, a)) :
    (insertAllocation start a entries).Pairwise Before := by
  induction entries with
  | nil => exact List.pairwise_singleton _ _
  | cons entry rest ih =>
    obtain ⟨first, later⟩ := List.pairwise_cons.mp ordered
    have here := apart entry List.mem_cons_self
    have size := (placed entry List.mem_cons_self).start_lt
    have newSize := new.start_lt
    rw [insertAllocation]
    split
    case isTrue below =>
      rw [UInt64.lt_iff_toNat_lt] at below
      have before : Before (start, a) entry := by
        refine here.resolve_right fun behind => ?_
        rw [Before] at behind
        dsimp only at behind
        omega
      refine List.pairwise_cons.mpr ⟨List.forall_mem_cons.mpr ⟨before, fun x listed => ?_⟩, ordered⟩
      have := first x listed
      rw [Before] at *
      omega
    case isFalse above =>
      rw [UInt64.lt_iff_toNat_lt] at above
      have behind : Before entry (start, a) := by
        refine here.resolve_left fun before => ?_
        rw [Before] at before
        dsimp only at before newSize
        omega
      refine List.pairwise_cons.mpr ⟨fun x listed => ?_, ih later
        (fun x listed => apart x (List.mem_cons_of_mem _ listed))
        fun x listed => placed x (List.mem_cons_of_mem _ listed)⟩
      rcases List.mem_cons.mp ((perm_insertAllocation start a rest).mem_iff.mp listed)
        with rfl | listed
      · exact behind
      · exact first x listed

/-- A map with one more block. -/
theorem WellFormed.allocate (wf : m.WellFormed) (sound : m.HostSound) {r : Region}
    {size alignment start rounded : UInt64} {usage : AllocationUse}
    (taken : m.allocate r size alignment usage = .ok (start, rounded, n)) : n.WellFormed := by
  obtain ⟨planned, host, served, rfl⟩ := allocate_eq_ok taken
  obtain ⟨positive, fits, -⟩ := plan_eq_ok planned
  have nonzero := roundedSize_ne_zero positive fits
  have length := toNat_pos_of_ne_zero nonzero
  obtain ⟨notNull, ends, apart⟩ := sound _ _ _ _ served
  rw [max_eq_left length] at ends apart
  have new : ∀ owner, Placed (start, ⟨rounded, r.handle, owner, .readWrite, usage⟩) :=
    fun _ => ⟨notNull, nonzero, ends⟩
  refine ⟨fun entry listed => ?_, ?_, wf.counted⟩
  · rcases List.mem_cons.mp ((perm_insertAllocation ..).mem_iff.mp listed) with rfl | listed
    · exact new _
    · exact wf.placed entry listed
  · refine ordered_insertAllocation wf.ordered (fun entry listed => ?_) wf.placed (new _)
    exact (disjoint_span nonzero (wf.placed entry listed).positive).mp (apart entry listed)

/-! ### Taking blocks back -/

theorem free_eq_ok {usage : AllocationUse} {a : Allocation}
    (freed : m.free address usage = .ok (a, n)) :
    m.allocationAt? address = some a ∧ a.usage = usage ∧
      n = { m with allocations := m.allocations.filter fun entry => entry.1 ≠ address } := by
  rw [free] at freed
  split at freed
  · cases freed
  · split at freed
    · cases freed
    case h_2 found =>
      split at freed
      case isTrue same =>
        cases freed
        exact ⟨found, same, rfl⟩
      case isFalse => cases freed

/-- Among blocks that start at different addresses, taking back the one that starts at an address
takes back no other. -/
theorem perm_filter_start {entries : List (UInt64 × Allocation)} {a : Allocation}
    (ordered : entries.Pairwise fun x y => x.1.toNat < y.1.toNat)
    (listed : (address, a) ∈ entries) :
    entries.Perm ((address, a) :: entries.filter fun entry => entry.1 ≠ address) := by
  induction entries with
  | nil => cases listed
  | cons entry rest ih =>
    obtain ⟨first, later⟩ := List.pairwise_cons.mp ordered
    rw [List.filter_cons]
    rcases List.mem_cons.mp listed with rfl | listed
    · have others : (rest.filter fun entry => entry.1 ≠ address) = rest :=
        List.filter_eq_self.mpr fun x inside => by
          simpa using fun same : x.1 = address => (first x inside).ne (by rw [same])
      rw [others]
      simp
    · have other : entry.1 ≠ address := fun same => (first _ listed).ne (by rw [same])
      simp only [ne_eq, other, not_false_eq_true, decide_true, if_true]
      exact ((ih later listed).cons entry).trans (.swap _ _ _)

theorem WellFormed.perm_free (wf : m.WellFormed) {usage : AllocationUse} {a : Allocation}
    (freed : m.free address usage = .ok (a, n)) :
    m.allocations.Perm ((address, a) :: n.allocations) := by
  obtain ⟨found, -, rfl⟩ := free_eq_ok freed
  exact perm_filter_start wf.starts_ascend (mem_of_lookup found)

/-- A block is taken back for the use that it was handed out for. -/
theorem WellFormed.exists_free (wf : m.WellFormed) {a : Allocation}
    (found : m.allocationAt? address = some a) : ∃ n, m.free address a.usage = .ok (a, n) := by
  have listed : (address, a) ∈ m.allocations := mem_of_lookup found
  rw [Memory.free, if_neg (wf.placed _ listed).notNull, found]
  dsimp only
  rw [if_pos rfl]
  exact ⟨_, rfl⟩

theorem WellFormed.free (wf : m.WellFormed) {usage : AllocationUse} {a : Allocation}
    (freed : m.free address usage = .ok (a, n)) : n.WellFormed := by
  obtain ⟨-, -, rfl⟩ := free_eq_ok freed
  exact ⟨fun entry listed => wf.placed entry (List.mem_of_mem_filter listed),
    List.Pairwise.filter _ wf.ordered, wf.counted⟩

/-! ### Giving blocks to agents -/

/-- A block is the same but for the agent that owns it. -/
structure SameBlock (x y : UInt64 × Allocation) : Prop where
  start : y.1 = x.1
  size : y.2.size = x.2.size
  region : y.2.region = x.2.region
  usage : y.2.usage = x.2.usage

theorem WellFormed.assign_eq_ok (wf : m.WellFormed) {fineGrained : Handle → Bool} {agent : Handle}
    {access : AccessPermission} (given : m.assign fineGrained address agent access = .ok n) :
    ∃ give : UInt64 × Allocation → UInt64 × Allocation,
      n = { m with allocations := m.allocations.map give } ∧
        ∀ entry ∈ m.allocations, SameBlock entry (give entry) := by
  rw [assign] at given
  split at given
  · cases given
  case h_2 a found =>
    split at given
    · cases given
      exact ⟨id, by simp, fun _ _ => ⟨rfl, rfl, rfl, rfl⟩⟩
    · cases given
      refine ⟨_, rfl, fun entry listed => ?_⟩
      split
      case isTrue same =>
        obtain rfl := wf.start_inj listed (mem_of_lookup found) same
        exact ⟨rfl, rfl, rfl, rfl⟩
      case isFalse => exact ⟨rfl, rfl, rfl, rfl⟩

theorem WellFormed.assign (wf : m.WellFormed) {fineGrained : Handle → Bool} {agent : Handle}
    {access : AccessPermission} (given : m.assign fineGrained address agent access = .ok n) :
    n.WellFormed := by
  obtain ⟨give, rfl, same⟩ := wf.assign_eq_ok given
  refine ⟨fun entry listed => ?_, List.pairwise_map.mpr ?_, wf.counted⟩
  · obtain ⟨before, held, rfl⟩ := List.mem_map.mp listed
    obtain ⟨start, size, -, -⟩ := same before held
    have placed := wf.placed before held
    exact ⟨start ▸ placed.notNull, size ▸ placed.positive, start ▸ size ▸ placed.fits⟩
  · refine wf.ordered.imp_of_mem fun hx hy before => ?_
    have first := same _ hx
    have second := same _ hy
    rw [Before] at before ⊢
    rw [first.start, first.size, second.start]
    exact before

/-! ### Registering ranges -/

theorem WellFormed.setRegistrationCount (wf : m.WellFormed) (start size : UInt64)
    (count : UInt32) : (m.setRegistrationCount start size count).WellFormed := by
  refine ⟨wf.placed, wf.ordered, fun entry listed => ?_⟩
  have others : ∀ entry ∈ m.registrations.filter fun entry => entry.1 ≠ (start, size),
      entry.2 ≠ 0 := fun entry listed => wf.counted entry (List.mem_of_mem_filter listed)
  rw [Memory.setRegistrationCount] at listed
  split at listed
  · exact others entry listed
  case isFalse positive =>
    rcases List.mem_cons.mp listed with rfl | listed
    · exact positive
    · exact others entry listed

/-- A range is registered once more. -/
theorem register_eq_ok {size : UInt64} : m.register address size = .ok n ↔
    address ≠ 0 ∧ size ≠ 0 ∧ m.overlapping address size = [] ∧
      (m.registrationCount address size).toNat + 1 < UInt32.size ∧
      m.setRegistrationCount address size (m.registrationCount address size + 1) = n := by
  rw [register]
  by_cases null : address = 0
  · simp [null]
  by_cases empty : size = 0
  · simp [null, empty]
  by_cases free : m.overlapping address size = []
  · by_cases below : (m.registrationCount address size).toNat + 1 < UInt32.size
    · simp [null, empty, free, below]
    · simp [null, empty, free, below]
  · simp [null, empty, free]

/-- A range is registered once less. -/
theorem deregister_eq_ok {size : UInt64} : m.deregister address size = .ok n ↔
    m.registrationCount address size ≠ 0 ∧
      m.setRegistrationCount address size (m.registrationCount address size - 1) = n := by
  rw [deregister]
  by_cases none : m.registrationCount address size = 0
  · simp [none]
  · simp [none]

/-! ### Changes -/

/-- What may happen to a map at once. -/
inductive Change (m : Memory) : Memory → Prop where
  | fill (contents : Contents) : Change m { m with contents }
  /-- The host hands out a block that the map does not hold. -/
  | serve {size alignment : Nat} {start : UInt64} {host : Host}
      (served : m.host.allocate? size alignment = some (start, host)) : Change m { m with host }
  | allocate {r : Region} {size alignment start rounded : UInt64} {usage : AllocationUse}
      {n : Memory} (taken : m.allocate r size alignment usage = .ok (start, rounded, n)) :
      Change m n
  | free {address : UInt64} {usage : AllocationUse} {a : Allocation} {n : Memory}
      (freed : m.free address usage = .ok (a, n)) : Change m n
  | assign {fineGrained : Handle → Bool} {address : UInt64} {agent : Handle}
      {access : AccessPermission} {n : Memory}
      (given : m.assign fineGrained address agent access = .ok n) : Change m n
  | register (start size : UInt64) (count : UInt32) :
      Change m (m.setRegistrationCount start size count)
  | releaseAll : Change m m.releaseAll

/-- Maps stay well-formed as long as the host is sound. -/
theorem Change.wellFormed (change : m.Change n) (wf : m.WellFormed) (sound : m.HostSound) :
    n.WellFormed := by
  cases change with
  | fill | serve => exact ⟨wf.placed, wf.ordered, wf.counted⟩
  | allocate taken => exact wf.allocate sound taken
  | free freed => exact wf.free freed
  | assign given => exact wf.assign given
  | register start size count => exact wf.setRegistrationCount start size count
  | releaseAll => exact ⟨nofun, .nil, nofun⟩

/-! ### Ascending blocks -/

/-- A block starts behind all that is taken. -/
theorem le_startFrom (frontier : Nat) (r : BlockRequest) :
    frontier ≤ Host.startFrom frontier r := by
  have page : 0 < Host.page := by decide
  have rest := Nat.mod_lt frontier (page.trans_le (le_max_right r.alignment Host.page))
  rw [Host.startFrom, Word.alignUp]
  split
  · exact le_rfl
  · omega

/-- A block of a host with ascending blocks lies behind all blocks that were handed out before. -/
theorem ascending_eq_some {r : BlockRequest} {earlier : List BlockRequest} {start : UInt64}
    (served : Host.ascending (r :: earlier) = some start) :
    Host.frontier earlier ≤ start.toNat ∧ start.toNat + r.size + Host.gap < 2 ^ 64 ∧
      start.toNat + r.size ≤ Host.frontier (r :: earlier) := by
  rw [Host.ascending] at served
  split at served
  · cases served
  case isFalse fits =>
    cases served
    have below := le_startFrom (Host.frontier earlier) r
    have limit : Host.startFrom (Host.frontier earlier) r + r.size + Host.gap < 2 ^ 64 :=
      not_le.mp fun large => fits (.inr (.inr large))
    have small : Host.startFrom (Host.frontier earlier) r < 2 ^ 64 := by omega
    rw [UInt64.toNat_ofNat_of_lt' small]
    exact ⟨below, limit, Nat.le_add_right _ _⟩

theorem base_le_frontier (served : List BlockRequest) : Host.base ≤ Host.frontier served := by
  induction served with
  | nil => exact le_rfl
  | cons r earlier ih =>
    have below := le_startFrom (Host.frontier earlier) r
    rw [Host.frontier]
    omega

/-- The allocations of a map were handed out by a host with ascending blocks. -/
structure Ascends (m : Memory) : Prop where
  choose : m.host.choose = Host.ascending
  below : ∀ entry ∈ m.allocations,
    entry.1.toNat + entry.2.size.toNat ≤ Host.frontier m.host.served

/-- What a host with ascending blocks hands out. -/
theorem Ascends.serve (ascends : m.Ascends) {size alignment : Nat} {start : UInt64} {host : Host}
    (served : m.host.allocate? size alignment = some (start, host)) :
    Host.frontier m.host.served ≤ start.toNat ∧ start.toNat + max size 1 < 2 ^ 64 ∧
      host.choose = Host.ascending ∧ start.toNat + max size 1 ≤ Host.frontier host.served ∧
      Host.frontier m.host.served ≤ Host.frontier host.served := by
  obtain ⟨chosen, found, same⟩ := Option.map_eq_some_iff.mp served
  cases same
  rw [ascends.choose] at found
  obtain ⟨behind, limit, ahead⟩ := ascending_eq_some found
  dsimp only at limit ahead ⊢
  exact ⟨behind, by omega, ascends.choose, ahead, by omega⟩

/-- A host with ascending blocks is sound. -/
theorem Ascends.hostSound (ascends : m.Ascends) (wf : m.WellFormed) : m.HostSound := by
  intro size alignment start host served
  obtain ⟨behind, limit, -⟩ := ascends.serve served
  have base := base_le_frontier m.host.served
  refine ⟨fun null => ?_, limit, fun entry listed => ?_⟩
  · rw [null] at behind
    exact absurd (base.trans behind) (by decide)
  · have below := ascends.below entry listed
    have := (wf.placed entry listed).start_lt
    rw [span, Set.Ico_disjoint_Ico]
    omega

/-- Only the host's own blocks become allocations. -/
theorem Change.ascends (change : m.Change n) (wf : m.WellFormed) (ascends : m.Ascends) :
    n.Ascends := by
  obtain ⟨choose, below⟩ := ascends
  cases change with
  | fill | register => exact ⟨choose, below⟩
  | serve served =>
    obtain ⟨-, -, choose, -, more⟩ := Ascends.serve ⟨choose, below⟩ served
    exact ⟨choose, fun entry listed => (below entry listed).trans more⟩
  | allocate taken =>
    obtain ⟨planned, host, served, rfl⟩ := allocate_eq_ok taken
    obtain ⟨positive, fits, -⟩ := plan_eq_ok planned
    obtain ⟨-, -, choose, new, more⟩ := Ascends.serve ⟨choose, below⟩ served
    refine ⟨choose, fun entry listed => ?_⟩
    rcases List.mem_cons.mp ((perm_insertAllocation ..).mem_iff.mp listed) with rfl | listed
    · have length := toNat_pos_of_ne_zero (roundedSize_ne_zero positive fits)
      rw [max_eq_left length] at new
      exact new
    · exact (below entry listed).trans more
  | free freed =>
    obtain ⟨-, -, rfl⟩ := free_eq_ok freed
    exact ⟨choose, fun entry listed => below entry (List.mem_of_mem_filter listed)⟩
  | assign given =>
    obtain ⟨give, rfl, same⟩ := wf.assign_eq_ok given
    refine ⟨choose, fun entry listed => ?_⟩
    obtain ⟨before, held, rfl⟩ := List.mem_map.mp listed
    rw [(same before held).start, (same before held).size]
    exact below before held
  | releaseAll => exact ⟨choose, nofun⟩

end Memory

end Accelerator
