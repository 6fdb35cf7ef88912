import Accelerator.Proofs.Accounts.Granules
import Mathlib.Data.List.Pairwise

/-!
# Blocks of the application

What the application gets when it asks a region for memory, and what it gives back. A request is
refused for the first of a few reasons, each with a kind of fault of its own, and then nothing has
happened. Otherwise the block that is handed out is as long as the least multiple of the region's
granule that the request fits into. It is that length, and not the one that was asked for, that is
recorded, added to the bytes in use, and taken off again when the block comes back.

A block comes back by its first address. An address inside a block is not the first address of
another, the ring of a queue is not a block of the application, and a block that has come back is
not there any more.

## What is asked of the host

The result on requests has three hypotheses, and none of them speaks of the outcome. The host is
sound; it has a block for the request, at a multiple of the alignment; and the sum that rounding
goes through is a word. Without the last, a request may be refused although its multiple is a word.
Which sizes these are is a question about granules alone.

`Region.refusal` is a function. Stated for each reason on its own, the result would have to say each
time that the reasons before did not hold; with the function it is one equation, and a request that
is refused for two reasons is refused for the first.

## Main definitions

* `Action.Refuses`: an action comes to nothing but a fault of some kind.
* `Region.refusal`: the kind of fault that a request for a block is refused with.
* `Session.NewBlock`, `Session.BlockReturned`: a block that was just handed out or taken back.

## Main results

* `RegionInfo.IsValid.isLeast_roundUp`: sizes are rounded to the least multiple of the granule.
* `Memory.WellFormed.allocationAt?_of_perm`: a map with one block more than another.
* `Session.Hosted.refuses_allocate_iff`, `Session.Hosted.allocates`: requests for blocks.
* `Session.Hosted.free_succeeds_iff`, `Session.Hosted.frees_once`: blocks that come back.
* `Session.Hosted.allocates_rounded_and_frees_once`: both, along every run.
-/

namespace Accelerator

/-! ### Rounded sizes -/

namespace RegionInfo.IsValid

variable {info : RegionInfo} (valid : info.IsValid)
include valid

theorem max_granule : max info.granule.toNat 1 = info.granule.toNat :=
  Nat.max_eq_left (toNat_pos_of_ne_zero valid.granule)

/-- Sizes are rounded to the least multiple of the granule that they fit into. -/
theorem isLeast_roundUp (size : Nat) :
    IsLeast {n | info.granule.toNat ∣ n ∧ size ≤ n} (info.roundUp size) := by
  have least := info.isLeast_roundUp size
  rwa [covers, grain, valid.max_granule] at least

end RegionInfo.IsValid

/-! ### Cleared bytes -/

namespace Contents

theorem byteAt_clear (c : Contents) (address size a : UInt64) :
    (c.clear address size).byteAt a = if size ≤ a - address then c.byteAt a else 0 := by
  rw [byteAt, clear, Std.HashMap.getD_filter', byteAt, Std.HashMap.getD_eq_getD_getElem?]
  cases c.cells[a]? with
  | none => simp
  | some value =>
    by_cases outside : size ≤ a - address
    · simp [Option.filter, outside]
    · simp [Option.filter, outside]

/-- A range reads 0 after it has been cleared. -/
theorem read_clear (c : Contents) (address size : UInt64) :
    (c.clear address size).read address size.toNat = List.replicate size.toNat 0 := by
  refine List.eq_replicate_iff.mpr ⟨length_read .., fun b read => ?_⟩
  obtain ⟨i, listed, rfl⟩ := List.mem_map.mp read
  have below : i < size.toNat := List.mem_range.mp listed
  have inside : ¬ size ≤ address + .ofNat i - address := by
    rw [UInt64.add_comm, UInt64.add_sub_cancel, UInt64.le_iff_toNat_le,
      UInt64.toNat_ofNat_of_lt' (below.trans size.toNat_lt)]
    exact not_le.mpr below
  rw [byteAt_clear, if_neg inside]

end Contents

/-! ### Blocks of a map -/

namespace Memory

variable {m n : Memory} {address start : UInt64} {a : Allocation}

/-- Two blocks share no address. -/
def Apart (x y : UInt64 × Allocation) : Prop :=
  Disjoint (span x.1 x.2.size) (span y.1 y.2.size)

instance : Std.Symm Apart where
  symm _ _ apart := Disjoint.symm apart

theorem WellFormed.apart (wf : m.WellFormed) {x y : UInt64 × Allocation}
    (hx : x ∈ m.allocations) (hy : y ∈ m.allocations) (other : x ≠ y) : Apart x y := by
  have blocks : m.allocations.Pairwise Apart := by
    refine wf.ordered.imp_of_mem fun hx hy before => ?_
    exact (disjoint_span (wf.placed _ hx).positive (wf.placed _ hy).positive).mpr (.inl before)
  exact blocks.forall hx hy other

/-- An address inside a block is not the first address of another. -/
theorem WellFormed.allocationAt?_eq_none (wf : m.WellFormed)
    (found : m.allocationAt? start = some a) (inside : address.toNat ∈ span start a.size)
    (other : address ≠ start) : m.allocationAt? address = none := by
  refine Option.eq_none_iff_forall_ne_some.mpr fun b found' => ?_
  have hx := wf.allocationAt?_eq_some.mp found
  have hy := wf.allocationAt?_eq_some.mp found'
  have apart := wf.apart hx hy fun same => other (congrArg Prod.fst same).symm
  exact Set.disjoint_left.mp apart inside (Set.left_mem_Ico.mpr (wf.placed _ hy).start_lt)

/-- Of two maps, one has a block more. -/
theorem WellFormed.allocationAt?_of_perm (wf : m.WellFormed) (wf' : n.WellFormed)
    (more : m.allocations.Perm ((start, a) :: n.allocations)) :
    n.allocationAt? start = none ∧ m.allocationAt? start = some a ∧
      ∀ address, address ≠ start → m.allocationAt? address = n.allocationAt? address := by
  have listed : (start, a) ∈ m.allocations := more.mem_iff.mpr List.mem_cons_self
  refine ⟨Option.eq_none_iff_forall_ne_some.mpr fun b found => ?_,
    wf.allocationAt?_eq_some.mpr listed, fun address other => Option.ext fun b => ?_⟩
  · have apart := (more.map (·.1)).nodup_iff.mp wf.nodup_starts
    have held : (start, b) ∈ n.allocations := mem_of_lookup found
    exact (List.nodup_cons.mp apart).1 (List.mem_map.mpr ⟨_, held, rfl⟩)
  · rw [wf.allocationAt?_eq_some, wf'.allocationAt?_eq_some, more.mem_iff, List.mem_cons]
    exact or_iff_right fun same => other (congrArg Prod.fst same)

/-- A block that is not taken back was told wrongly. -/
theorem kind_free {usage : AllocationUse} {e : Fault} (refused : m.free address usage = .error e) :
    e.kind = .invalidArgument := by
  rw [free] at refused
  split at refused
  · cases refused
    rfl
  · split at refused
    · cases refused
      rfl
    · split at refused
      · cases refused
      · cases refused
        rfl

/-- The application may access a block of its own as a whole. -/
theorem WellFormed.isAccessible_block (wf : m.WellFormed) (found : m.allocationAt? start = some a)
    (application : a.usage = .application) : m.isAccessible start a.size = true := by
  have listed := wf.allocationAt?_eq_some.mp found
  obtain ⟨notNull, positive, fits⟩ := wf.placed _ listed
  refine (wf.isAccessible_iff positive).mpr ⟨notNull, Nat.le_sub_one_of_lt fits, ?_,
    .inl ⟨_, listed, subset_rfl⟩⟩
  intro entry held ring
  refine wf.apart listed held fun same => ?_
  rw [← same, application] at ring
  cases ring

end Memory

/-! ### Refused requests -/

namespace Action

variable {α : Type} {x : Action α} {s : Session} {kind kind' : FaultKind}

/-- In a session an action comes to nothing but a fault of some kind. -/
def Refuses (x : Action α) (s : Session) (kind : FaultKind) : Prop :=
  ∃ e : Fault, x s = (.error e, s) ∧ e.kind = kind

theorem Refuses.kind_eq (first : x.Refuses s kind) (second : x.Refuses s kind') :
    kind = kind' := by
  obtain ⟨e, refused, rfl⟩ := first
  obtain ⟨e', refused', rfl⟩ := second
  cases refused.symm.trans refused'
  rfl

end Action

/-- The kind of fault that a request for a block of some bytes is refused with. -/
def Region.refusal (r : Region) (size : UInt64) : Option FaultKind :=
  if size = 0 then some .invalidArgument
  else if r.info.allocAllowed = false ∨ r.info.maxAllocation < size then some .invalidAllocation
  else if r.info.capacity.toNat < r.inUse.toNat + r.info.roundUp size.toNat then
    some .outOfResources
  else none

/-- The first check of a region that fails tells the kind. -/
theorem Region.kind_firstFailing {r : Region} {size : UInt64} (positive : size ≠ 0)
    (fits : size.toNat + (max r.info.granule.toNat 1 - 1) < 2 ^ 64) :
    (firstFailing (r.blockChecks r.inUse.toNat size)).map (fun cause => cause.diagnosis.kind) =
      r.refusal size := by
  rw [refusal, if_neg positive, blockChecks]
  cases r.info.allocAllowed with
  | false => rfl
  | true =>
    rw [firstFailing_true, decide_eq_true fits]
    by_cases large : r.info.maxAllocation < size
    · rw [decide_eq_false (UInt64.not_le.mpr large), if_pos (.inr large)]
      rfl
    · rw [decide_eq_true (UInt64.not_lt.mp large), firstFailing_true, firstFailing_true,
        if_neg (by simp [large])]
      by_cases full : r.info.capacity.toNat < r.inUse.toNat + r.info.roundUp size.toNat
      · rw [decide_eq_false (Nat.not_le.mpr full), if_pos full]
        rfl
      · rw [decide_eq_true (Nat.not_lt.mp full), if_neg full]
        rfl

namespace Session

open Accelerator.Action

variable {s t : Session} {h : Handle} {r : Region} {address size start rounded : UInt64}
variable {a : Allocation}

/-! ### Handing out -/

/-- A block that was just handed out. It lies at a multiple of the region's alignment, where no
block started before, and it belongs to the region's first owner. It is as long as the least
multiple of the granule that was enough, and so many bytes are in use in addition. All of its bytes
can be read, and read 0. No other block and no other region has changed. -/
structure NewBlock (s : Session) (r : Region) (size start rounded : UInt64) (t : Session) :
    Prop where
  aligned : r.info.alignment.toNat ∣ start.toNat
  fresh : s.memory.allocationAt? start = none
  recorded : t.memory.allocationAt? start =
    some ⟨rounded, r.handle, r.owners.head?, .readWrite, .application⟩
  others : ∀ address, address ≠ start →
    t.memory.allocationAt? address = s.memory.allocationAt? address
  least : IsLeast {n | r.info.granule.toNat ∣ n ∧ size.toNat ≤ n} rounded.toNat
  zeroed : readMemory start rounded t = (.ok (List.replicate rounded.toNat 0), t)
  taken : ∃ inUse, t.regions.get? r.handle = some { r with inUse } ∧
    inUse.toNat = r.inUse.toNat + rounded.toNat
  otherRegions : ∀ k, k ≠ r.handle → t.regions.get? k = s.regions.get? k

theorem allocate_eq (size : UInt64) (isOpen : s.isOpen = true)
    (live : s.regions.get? h = some r) :
    allocate h size s = match s.allocateFrom r size r.info.alignment .application with
      | .error cause => (.error (.allocation cause), s)
      | .ok (start, rounded, t) => (.ok (start, rounded), t) := by
  have found : region h s = (.ok r, s) := by
    rw [region, ensureOpen_bind isOpen, bind_apply, session_apply]
    dsimp only
    rw [live]
    rfl
  rw [allocate, bind_of_ok found, bind_apply, session_apply]
  dsimp only
  cases s.allocateFrom r size r.info.alignment .application with
  | error cause => rfl
  | ok block => rfl

theorem Hosted.newBlock (hosted : s.Hosted) (isOpen : s.isOpen = true)
    (live : s.regions.get? h = some r) (sound : s.memory.HostSound)
    (aligned : r.info.alignment.toNat ∣ start.toNat) {memory : Memory}
    (taken : s.memory.allocate r size r.info.alignment .application =
      .ok (start, rounded, memory)) :
    s.NewBlock r size start rounded
      ({ s with memory }.modifyRegion r.handle (·.reserve rounded)) := by
  have wf := hosted.memory
  have wf' := wf.allocate sound taken
  obtain ⟨planned, host, -, same⟩ := Memory.allocate_eq_ok taken
  obtain ⟨-, fits, room⟩ := Memory.plan_eq_ok planned
  have more : memory.allocations.Perm
      ((start, ⟨rounded, r.handle, r.owners.head?, .readWrite, .application⟩) ::
        s.memory.allocations) := same ▸ Memory.perm_insertAllocation ..
  obtain ⟨fresh, recorded, others⟩ := wf'.allocationAt?_of_perm wf more
  have named := (hosted.kept.books.bytes.balanced h r live).1
  have least := (hosted.isValid live).isLeast_roundUp size.toNat
  rw [← RegionInfo.toNat_roundedSize fits] at least
  refine ⟨aligned, fresh, recorded, others, least, ?_, ?_, fun k other => ?_⟩
  · have accessible := wf'.isAccessible_block recorded rfl
    rw [readMemory_eq (by exact isOpen), if_pos (by exact accessible)]
    have cleared := s.memory.contents.read_clear start rounded
    rw [same]
    exact congrArg (fun bs => (Except.ok bs, _)) cleared
  · refine ⟨(r.reserve rounded).inUse, ?_, (Region.inUse_reserve room).1⟩
    show (s.regions.modify r.handle (·.reserve rounded)).get? r.handle = _
    rw [← named] at live
    rw [Arena.get?_modify_self, live]
    rfl
  · exact Arena.get?_modify_of_ne other _

/-- A request for a block is refused, or there is a new block. -/
theorem Hosted.allocates_or_refuses (hosted : s.Hosted) (isOpen : s.isOpen = true)
    (live : s.regions.get? h = some r) (sound : s.memory.HostSound)
    (fits : size.toNat + (r.info.granule.toNat - 1) < 2 ^ 64)
    (serves : s.memory.host.Serves (r.info.roundUp size.toNat) r.info.alignment.toNat) :
    match r.refusal size with
    | some kind => (allocate h size).Refuses s kind
    | none => ∃ start rounded t, allocate h size s = (.ok (start, rounded), t) ∧
        s.NewBlock r size start rounded t := by
  have called := allocate_eq size isOpen live
  rcases eq_or_ne size 0 with rfl | positive
  · exact ⟨_, called, rfl⟩
  rw [← (hosted.isValid live).max_granule] at fits
  have kind := Region.kind_firstFailing positive fits
  cases failing : firstFailing (r.blockChecks r.inUse.toNat size) with
  | some cause =>
    rw [failing] at kind
    rw [← kind]
    rw [allocateFrom_refused positive failing] at called
    exact ⟨_, called, rfl⟩
  | none =>
    rw [failing] at kind
    rw [← kind]
    obtain ⟨start, next, served, aligned⟩ := serves
    obtain ⟨rounded, memory, taken⟩ := exists_allocate r.info.alignment .application positive
      failing (by rwa [Nat.max_self])
    rw [allocateFrom, taken] at called
    exact ⟨start, rounded, _, called, hosted.newBlock isOpen live sound aligned taken⟩

/-! ### Taking back -/

/-- A block that was just taken back. Its bytes were in use, and are not any more. Nothing else has
changed. -/
structure BlockReturned (s : Session) (address : UInt64) (a : Allocation) (t : Session) :
    Prop where
  gone : t.memory.allocationAt? address = none
  others : ∀ other, other ≠ address →
    t.memory.allocationAt? other = s.memory.allocationAt? other
  returned : ∃ r inUse, s.regions.get? a.region = some r ∧
    t.regions.get? a.region = some { r with inUse } ∧ inUse.toNat + a.size.toNat = r.inUse.toNat
  otherRegions : ∀ k, k ≠ a.region → t.regions.get? k = s.regions.get? k
  rest : ∃ allocations regions,
    t = { s with memory := { s.memory with allocations }, regions }

theorem free_eq (address : UInt64) (isOpen : s.isOpen = true) :
    free address s = match s.memory.free address .application with
      | .error e => (.error e, s)
      | .ok (a, memory) => (.ok (), { s with memory }.releaseAllocation a) := by
  rw [free, ensureOpen_bind isOpen, freeBlock, bind_apply, session_apply]
  dsimp only
  cases freed : s.memory.free address .application with
  | error e => rfl
  | ok block => rfl

theorem Hosted.blockReturned (hosted : s.Hosted) {memory : Memory}
    (freed : s.memory.free address .application = .ok (a, memory)) :
    s.BlockReturned address a ({ s with memory }.releaseAllocation a) := by
  have wf := hosted.memory
  obtain ⟨gone, -, others⟩ := wf.allocationAt?_of_perm (wf.free freed) (wf.perm_free freed)
  obtain ⟨⟨r, live, covered⟩, -⟩ := hosted.kept.books.free freed
  have less : (r.release a.size).inUse.toNat = r.inUse.toNat - a.size.toNat :=
    UInt64.toNat_sub_of_le _ _ covered
  rw [UInt64.le_iff_toNat_le] at covered
  refine ⟨gone, fun other apart => (others other apart).symm,
    ⟨r, (r.release a.size).inUse, live, ?_, by omega⟩,
    fun k other => Arena.get?_modify_of_ne other _, ?_⟩
  · show (s.regions.modify a.region (·.release a.size)).get? a.region = _
    rw [Arena.get?_modify_self, live]
    rfl
  · rw [(Memory.free_eq_ok freed).2.2]
    exact ⟨_, _, rfl⟩

/-- What is not the first address of a block of the application is not taken back. -/
theorem refuses_free (isOpen : s.isOpen = true)
    (foreign : ∀ a, s.memory.allocationAt? address = some a → a.usage ≠ .application) :
    (free address).Refuses s .invalidArgument := by
  have called := free_eq address isOpen
  cases freed : s.memory.free address .application with
  | error e =>
    rw [freed] at called
    exact ⟨e, called, Memory.kind_free freed⟩
  | ok block =>
    obtain ⟨found, application, -⟩ := Memory.free_eq_ok freed
    exact absurd application (foreign _ found)

/-- The ring of a queue is not a block of the application. -/
theorem Kept.usage_of_ring (kept : s.Kept) {q : Queue} (listed : q ∈ s.queues.values)
    (ring : q.ringAllocation = some address) (found : s.memory.allocationAt? address = some a) :
    a.usage = .queueRing := by
  have starts : address ∈ ringStarts s.memory.allocations :=
    kept.balanced.rings.mem_iff.mpr (List.mem_filterMap.mpr ⟨q, listed, ring⟩)
  obtain ⟨b, n, freed⟩ := kept.books.memory.free_ring starts
  obtain ⟨found', usage, -⟩ := Memory.free_eq_ok freed
  cases found.symm.trans found'
  exact usage

/-! ### When, and when not -/

section Requests

variable (hosted : s.Hosted) (isOpen : s.isOpen = true) (live : s.regions.get? h = some r)
variable (sound : s.memory.HostSound)
variable (fits : size.toNat + (r.info.granule.toNat - 1) < 2 ^ 64)
variable (serves : s.memory.host.Serves (r.info.roundUp size.toNat) r.info.alignment.toNat)
include hosted isOpen live sound fits serves

theorem Hosted.allocates (granted : r.refusal size = none) :
    ∃ start rounded t, allocate h size s = (.ok (start, rounded), t) ∧
      s.NewBlock r size start rounded t := by
  have outcome := hosted.allocates_or_refuses isOpen live sound fits serves
  rwa [granted] at outcome

/-- A request is refused with the kind of fault that goes with the first reason, and no other. -/
theorem Hosted.refuses_allocate_iff (kind : FaultKind) :
    (allocate h size).Refuses s kind ↔ r.refusal size = some kind := by
  have outcome := hosted.allocates_or_refuses isOpen live sound fits serves
  cases refusal : r.refusal size with
  | some first =>
    rw [refusal] at outcome
    refine ⟨fun refused => ?_, ?_⟩
    · rw [outcome.kind_eq refused]
    · rintro ⟨⟩
      exact outcome
  | none =>
    rw [refusal] at outcome
    refine ⟨?_, nofun⟩
    rintro ⟨e, refused, -⟩
    obtain ⟨start, rounded, t, granted, -⟩ := outcome
    cases refused.symm.trans granted

end Requests

section Returns

variable (hosted : s.Hosted) (isOpen : s.isOpen = true)
include hosted isOpen

theorem Hosted.frees (found : s.memory.allocationAt? address = some a)
    (application : a.usage = .application) :
    ∃ t, free address s = (.ok (), t) ∧ s.BlockReturned address a t := by
  obtain ⟨memory, freed⟩ := hosted.memory.exists_free found
  rw [application] at freed
  exact ⟨_, by rw [free_eq address isOpen, freed], hosted.blockReturned freed⟩

/-- A block that has come back is not there any more. -/
theorem Hosted.frees_once (found : s.memory.allocationAt? address = some a)
    (application : a.usage = .application) :
    ∃ t, free address s = (.ok (), t) ∧ s.BlockReturned address a t ∧
      (free address).Refuses t .invalidArgument := by
  obtain ⟨t, freed, returned⟩ := hosted.frees isOpen found application
  have isOpen' : t.isOpen = true := by
    obtain ⟨allocations, regions, rfl⟩ := returned.rest
    exact isOpen
  refine ⟨t, freed, returned, refuses_free isOpen' fun b found => ?_⟩
  rw [returned.gone] at found
  cases found

theorem Hosted.free_succeeds_iff : (free address s).1 = .ok () ↔
    ∃ a, s.memory.allocationAt? address = some a ∧ a.usage = .application := by
  constructor
  · intro freed
    by_contra none
    have foreign : ∀ a, s.memory.allocationAt? address = some a → a.usage ≠ .application :=
      fun a found application => none ⟨a, found, application⟩
    obtain ⟨e, refused, -⟩ := refuses_free isOpen foreign
    rw [refused] at freed
    cases freed
  · rintro ⟨a, found, application⟩
    obtain ⟨t, freed, -⟩ := hosted.frees isOpen found application
    rw [freed]

theorem Hosted.refuses_free_inside (found : s.memory.allocationAt? start = some a)
    (inside : address.toNat ∈ span start a.size) (other : address ≠ start) :
    (free address).Refuses s .invalidArgument := by
  refine refuses_free isOpen fun b found' => ?_
  rw [hosted.memory.allocationAt?_eq_none found inside other] at found'
  cases found'

theorem Hosted.refuses_free_ring {q : Queue} (listed : q ∈ s.queues.values)
    (ring : q.ringAllocation = some address) : (free address).Refuses s .invalidArgument := by
  refine refuses_free isOpen fun a found => ?_
  rw [hosted.kept.usage_of_ring listed ring found]
  decide

end Returns

/-- Along every run: a request for a block is refused with the kind of fault that goes with the
first reason, and with no other; if there is no reason, there is a new block. A block is taken back
exactly if its first address is told and it is a block of the application; inside a block, for the
ring of a live queue, and for a block that was taken back before, that is refused. -/
theorem Hosted.allocates_rounded_and_frees_once (hosted : s.Hosted) (isOpen : s.isOpen = true) :
    (∀ h r size, s.regions.get? h = some r → s.memory.HostSound →
      size.toNat + (r.info.granule.toNat - 1) < 2 ^ 64 →
      s.memory.host.Serves (r.info.roundUp size.toNat) r.info.alignment.toNat →
      (∀ kind, (allocate h size).Refuses s kind ↔ r.refusal size = some kind) ∧
      (r.refusal size = none → ∃ start rounded t,
        allocate h size s = (.ok (start, rounded), t) ∧ s.NewBlock r size start rounded t)) ∧
    (∀ address, (free address s).1 = .ok () ↔
      ∃ a, s.memory.allocationAt? address = some a ∧ a.usage = .application) ∧
    (∀ address a, s.memory.allocationAt? address = some a → a.usage = .application →
      ∃ t, free address s = (.ok (), t) ∧ s.BlockReturned address a t ∧
        (free address).Refuses t .invalidArgument) ∧
    (∀ start a address, s.memory.allocationAt? start = some a →
      address.toNat ∈ span start a.size → address ≠ start →
      (free address).Refuses s .invalidArgument) ∧
    ∀ q ∈ s.queues.values, ∀ address, q.ringAllocation = some address →
      (free address).Refuses s .invalidArgument :=
  ⟨fun _ _ _ live sound fits serves =>
      ⟨hosted.refuses_allocate_iff isOpen live sound fits serves,
        hosted.allocates isOpen live sound fits serves⟩,
    fun _ => hosted.free_succeeds_iff isOpen,
    fun _ _ found application => hosted.frees_once isOpen found application,
    fun _ _ _ found inside other => hosted.refuses_free_inside isOpen found inside other,
    fun _ listed _ ring => hosted.refuses_free_ring isOpen listed ring⟩

/-- A region with a granule of 3000 bytes has handed out a block for 5000 of them. It can hand out
another, but none of 0 bytes. The block comes back by its first address and not by another. -/
theorem blocks_of_odd_granule : ∃ (s : Session) (r : Region), s.Hosted ∧ r.info.granule = 3000 ∧
    (∃ a, s.memory.allocationAt? 0x7f0000000000 = some a ∧ a.size = 6000) ∧
    (∃ start rounded t, allocate (.ofParts 0 1) 5000 s = (.ok (start, rounded), t) ∧
      s.NewBlock r 5000 start rounded t) ∧
    (allocate (.ofParts 0 1) 0).Refuses s .invalidArgument ∧
    (∃ t, free 0x7f0000000000 s = (.ok (), t) ∧
      (free 0x7f0000000000).Refuses t .invalidArgument) ∧
    (free 0x7f0000000bb8).Refuses s .invalidArgument := by
  have opened := Ascending.opened (s := .ofConfig _)
    (c := { Config.default with
      regions := [⟨{ Config.system with granule := 3000 }, ["cpu0"]⟩] }) rfl
  have allocated := opened.step (.lasting (o := .allocate (.ofParts 0 1) 5000)
    ⟨by decide, by decide, by decide⟩ ⟨nofun, nofun⟩)
  obtain ⟨hosted, ascends⟩ := allocated
  have sound := ascends.hostSound hosted.memory
  obtain ⟨requests, -, returns, inside, -⟩ := hosted.allocates_rounded_and_frees_once rfl
  have first := requests (.ofParts 0 1) _ 5000 rfl sound (by decide) ⟨_, _, rfl, by decide⟩
  have empty := requests (.ofParts 0 1) _ 0 rfl sound (by decide) ⟨_, _, rfl, by decide⟩
  obtain ⟨t, freed, -, again⟩ := returns 0x7f0000000000 _ rfl rfl
  have within := inside 0x7f0000000000 _ 0x7f0000000bb8 rfl ⟨by decide, by decide⟩ (by decide)
  exact ⟨_, _, hosted, rfl, ⟨_, rfl, rfl⟩, first.2 (by decide), (empty.1 _).mpr (by decide),
    ⟨t, freed, again⟩, within⟩

end Session

end Accelerator
