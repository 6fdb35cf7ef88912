import Accelerator.Proofs.Accounts.Balance

/-!
# Accesses to memory

What the application, and what kernels, may touch in a session, on any sound host. The memory map
knows rings as allocations of a certain use only. Since the books are right, these are the rings of
the live soft queues and no others, and so the rule for accesses can be told without them: a range
must lie in one live allocation or in one registered range, and apart from the rings of the live
soft queues.

The ring of a soft queue is the whole block that was allocated for it. It is rounded up to the
granule of its region, and so it may be longer than the slots of the ring.

A registered range may reach beyond the last address. Then no access lies within it.

## Why the range must not be empty

An empty range has no addresses, so the rule would permit it wherever it starts. The map does not go
by addresses alone: it refuses an empty range in the middle of a ring, and a copy of 0 bytes is not
looked at at all. So `len ≠ 0` is a hypothesis of every result on accesses, and not part of the
rule.

## What the books are needed for

The map forbids blocks that were handed out for rings, the rule forbids the rings of live queues.
That the two are the same blocks is `Rings.starts` of the books. Without it a block whose queue is
gone might be left on the list, and forbidden, for ever.

## Main definitions

* `Session.ringBytes`: the addresses of the ring of a queue.
* `Session.Permits`: the rule for accesses.

## Main results

* `Session.Hosted.readMemory_succeeds_iff` and its siblings: one way to access memory follows it.
* `Session.Hosted.accesses_iff_permitted`: all of them do.
-/

namespace Accelerator

namespace Session

open Accelerator.Action

variable {s : Session} {address len : UInt64}

/-- The addresses of the block that was allocated for the ring of a soft queue. -/
def ringBytes (s : Session) (q : Queue) : Set Nat :=
  {n | ∃ start a, q.ringAllocation = some start ∧ s.memory.allocationAt? start = some a ∧
    n ∈ span start a.size}

/-- What a range must be like to be accessed: it is not null, ends before the last address, has no
byte of the ring of a live queue, and lies in one live allocation, or in one range that is
registered and ends before the last address. -/
structure Permits (s : Session) (address len : UInt64) : Prop where
  notNull : address ≠ 0
  ends : address.toNat + len.toNat ≤ 2 ^ 64 - 1
  apart : ∀ q ∈ s.queues.values, Disjoint (span address len) (s.ringBytes q)
  within : (∃ start a, s.memory.allocationAt? start = some a ∧
      span address len ⊆ span start a.size) ∨
    ∃ start size, s.memory.registrationCount start size ≠ 0 ∧
      start.toNat + size.toNat ≤ 2 ^ 64 - 1 ∧ span address len ⊆ span start size

/-- The rings on the list of allocations are those of the live soft queues. -/
theorem Kept.apart_iff (kept : s.Kept) :
    (∀ entry ∈ s.memory.allocations, entry.2.usage = .queueRing →
      Disjoint (span address len) (span entry.1 entry.2.size)) ↔
    ∀ q ∈ s.queues.values, Disjoint (span address len) (s.ringBytes q) := by
  have wf := kept.books.memory
  have rings := kept.balanced.rings
  constructor
  · intro apart q listed
    rw [Set.disjoint_left]
    rintro n inside ⟨start, a, ring, found, shared⟩
    have starts : start ∈ ringStarts s.memory.allocations :=
      rings.mem_iff.mpr (List.mem_filterMap.mpr ⟨q, listed, ring⟩)
    obtain ⟨⟨_, b⟩, held, rfl⟩ := List.mem_map.mp starts
    obtain ⟨held, usage⟩ := List.mem_filter.mp held
    cases wf.start_inj held (wf.allocationAt?_eq_some.mp found) rfl
    exact Set.disjoint_left.mp (apart _ held (of_decide_eq_true usage)) inside shared
  · intro apart entry held usage
    have starts : entry.1 ∈ ringStarts s.memory.allocations :=
      List.mem_map_of_mem (List.mem_filter.mpr ⟨held, decide_eq_true usage⟩)
    obtain ⟨q, listed, ring⟩ := List.mem_filterMap.mp (rings.mem_iff.mp starts)
    refine (apart q listed).mono_right fun n inside => ?_
    exact ⟨entry.1, entry.2, ring, wf.allocationAt?_eq_some.mpr held, inside⟩

/-- The memory map follows the rule. -/
theorem Kept.isAccessible_iff (kept : s.Kept) (positive : len ≠ 0) :
    s.memory.isAccessible address len = true ↔ s.Permits address len := by
  have wf := kept.books.memory
  have blocks : (∃ entry ∈ s.memory.allocations, span address len ⊆ span entry.1 entry.2.size) ↔
      ∃ start a, s.memory.allocationAt? start = some a ∧
        span address len ⊆ span start a.size := by
    rw [Prod.exists]
    simp only [wf.allocationAt?_eq_some]
  rw [wf.isAccessible_iff positive]
  exact ⟨fun permits => ⟨permits.notNull, permits.ends, kept.apart_iff.mp permits.apart,
      permits.within.imp_left blocks.mp⟩,
    fun permits => ⟨permits.notNull, permits.ends, kept.apart_iff.mpr permits.apart,
      permits.within.imp_left blocks.mpr⟩⟩

/-! ### Ways to access memory -/

section Ways

variable (isOpen : s.isOpen = true)
include isOpen

/-- A check that the session is open comes to nothing as long as it is. -/
theorem ensureOpen_bind {α : Type} (f : Unit → Action α) : (ensureOpen >>= f) s = f () s := by
  rw [bind_apply, ensureOpen_eq_ok.mpr ⟨isOpen, rfl⟩]

theorem readMemory_eq : readMemory address len s =
    if s.memory.isAccessible address len = true
    then (.ok (s.memory.contents.read address len.toNat), s)
    else (.error (.argument (.notAccessible address len)), s) := by
  rw [readMemory, ensureOpen_bind isOpen, bind_apply, session_apply]
  dsimp only
  rw [Memory.readBytes?]
  split <;> rfl

theorem writeMemory_eq (bs : List UInt8) : writeMemory address bs s =
    if s.memory.isAccessible address (.ofNat bs.length) = true
    then (.ok (), { s with memory := s.memory.overwrite address bs })
    else (.error (.argument (.notAccessible address (.ofNat bs.length))), s) := by
  rw [writeMemory, ensureOpen_bind isOpen, bind_apply, session_apply]
  dsimp only
  rw [Memory.writeBytes?]
  split <;> rfl

theorem copyMemory_eq_ok (positive : len ≠ 0) (target source : UInt64) :
    (copyMemory target source len s).1 = .ok () ↔
      s.memory.isAccessible target len = true ∧ s.memory.isAccessible source len = true := by
  have copied : (copyMemory target source len s).1 = .ok () ↔
      ∃ m, s.memory.copy target source len = .ok m := by
    rw [copyMemory, ensureOpen_bind isOpen, bind_apply, session_apply]
    dsimp only
    cases s.memory.copy target source len with
    | ok m => exact ⟨fun _ => ⟨m, rfl⟩, fun _ => rfl⟩
    | error e =>
      show Except.error e = Except.ok () ↔ _
      exact ⟨nofun, nofun⟩
  have notNull : ∀ address, s.memory.isAccessible address len = true → address ≠ 0 := by
    rintro address allowed rfl
    cases allowed
  rw [copied, Memory.copy, if_neg positive]
  constructor
  · rintro ⟨m, done⟩
    split at done
    · cases done
    · split at done
      · cases done
      · split at done
        · cases done
        case isFalse target source => exact ⟨not_not.mp target, not_not.mp source⟩
  · rintro ⟨target, source⟩
    rw [if_neg (not_or.mpr ⟨notNull _ target, notNull _ source⟩), if_neg (not_not.mpr target),
      if_neg (not_not.mpr source)]
    exact ⟨_, rfl⟩

end Ways

/-! ### The rule for each of them -/

section Rule

variable (hosted : s.Hosted)
include hosted

/-- The region of an address is that of the live allocation in which the address lies. -/
theorem Hosted.regionOf_eq (isOpen : s.isOpen = true) :
    ∃ region, regionOf address s = (.ok region, s) ∧ ∀ h, region = some h ↔ ∃ start a,
      s.memory.allocationAt? start = some a ∧ address.toNat ∈ span start a.size ∧ a.region = h := by
  have wf := hosted.memory
  refine ⟨_, ensureOpen_bind isOpen _, fun h => ?_⟩
  rw [wf.regionOf?_eq_some, Prod.exists]
  simp only [wf.allocationAt?_eq_some]

variable (positive : len ≠ 0)
include positive

theorem Hosted.allows_iff :
    s.memory.isAccessible address len = true ↔ s.Permits address len :=
  hosted.kept.isAccessible_iff positive

theorem Hosted.isAccessible_answers (isOpen : s.isOpen = true) :
    ∃ answer, isAccessible address len s = (.ok answer, s) ∧
      (answer = true ↔ s.Permits address len) :=
  ⟨_, ensureOpen_bind isOpen _, hosted.allows_iff positive⟩

theorem Hosted.readMemory_succeeds_iff (isOpen : s.isOpen = true) :
    (∃ bs, (readMemory address len s).1 = .ok bs) ↔ s.Permits address len := by
  rw [readMemory_eq isOpen, ← hosted.allows_iff positive]
  split <;> simp [*]

theorem Hosted.writeMemory_succeeds_iff (isOpen : s.isOpen = true) {bs : List UInt8}
    (length : bs.length = len.toNat) :
    (writeMemory address bs s).1 = .ok () ↔ s.Permits address len := by
  rw [writeMemory_eq isOpen, length, UInt64.ofNat_toNat, ← hosted.allows_iff positive]
  split <;> simp [*]

theorem Hosted.copyMemory_succeeds_iff (isOpen : s.isOpen = true) (source : UInt64) :
    (copyMemory address source len s).1 = .ok () ↔
      s.Permits address len ∧ s.Permits source len := by
  rw [copyMemory_eq_ok isOpen positive, hosted.allows_iff positive, hosted.allows_iff positive]

theorem Hosted.isSome_readBytes?_iff :
    (s.memory.readBytes? address len).isSome = true ↔ s.Permits address len := by
  rw [Memory.readBytes?, ← hosted.allows_iff positive]
  split <;> simp [*]

theorem Hosted.isSome_writeBytes?_iff {bs : List UInt8} (length : bs.length = len.toNat) :
    (s.memory.writeBytes? address bs).isSome = true ↔ s.Permits address len := by
  rw [Memory.writeBytes?, length, UInt64.ofNat_toNat, ← hosted.allows_iff positive]
  split <;> simp [*]

/-- Words are added to at multiples of their width only. -/
theorem Hosted.isSome_fetchAdd?_iff (amount : Nat) :
    (s.memory.fetchAdd? len.toNat address amount).isSome = true ↔
      len.toNat ∣ address.toNat ∧ s.Permits address len := by
  rw [Memory.fetchAdd?, Memory.alignedWord?, UInt64.ofNat_toNat,
    ← hosted.isSome_readBytes?_iff positive, Nat.dvd_iff_mod_eq_zero]
  by_cases aligned : address.toNat % len.toNat = 0
  · rw [if_neg (not_not.mpr aligned)]
    cases s.memory.readBytes? address len <;> simp [aligned]
  · rw [if_pos aligned]
    simp [aligned]

end Rule

/-- Every way to access memory follows the rule: the application asks whether it may, reads, writes
and copies; kernels read, write, and add to words at multiples of their width. The region of an
address is that of the live allocation in which the address lies. -/
theorem Hosted.accesses_iff_permitted (hosted : s.Hosted) (isOpen : s.isOpen = true)
    (positive : len ≠ 0) :
    (∃ answer, isAccessible address len s = (.ok answer, s) ∧
      (answer = true ↔ s.Permits address len)) ∧
    ((∃ bs, (readMemory address len s).1 = .ok bs) ↔ s.Permits address len) ∧
    (∀ bs : List UInt8, bs.length = len.toNat →
      ((writeMemory address bs s).1 = .ok () ↔ s.Permits address len)) ∧
    (∀ source, (copyMemory address source len s).1 = .ok () ↔
      s.Permits address len ∧ s.Permits source len) ∧
    ((s.memory.readBytes? address len).isSome = true ↔ s.Permits address len) ∧
    (∀ bs : List UInt8, bs.length = len.toNat →
      ((s.memory.writeBytes? address bs).isSome = true ↔ s.Permits address len)) ∧
    (∀ amount, (s.memory.fetchAdd? len.toNat address amount).isSome = true ↔
      len.toNat ∣ address.toNat ∧ s.Permits address len) ∧
    ∃ region, regionOf address s = (.ok region, s) ∧ ∀ h, region = some h ↔ ∃ start a,
      s.memory.allocationAt? start = some a ∧ address.toNat ∈ span start a.size ∧ a.region = h :=
  ⟨hosted.isAccessible_answers positive isOpen,
    hosted.readMemory_succeeds_iff positive isOpen,
    fun _ length => hosted.writeMemory_succeeds_iff positive isOpen length,
    hosted.copyMemory_succeeds_iff positive isOpen,
    hosted.isSome_readBytes?_iff positive,
    fun _ length => hosted.isSome_writeBytes?_iff positive length,
    hosted.isSome_fetchAdd?_iff positive,
    hosted.regionOf_eq isOpen⟩

/-- The first bytes of an allocation can be read. -/
theorem accesses_allocation : ∃ s : Session, s.Hosted ∧ s.liveAllocations = 1 ∧
    ∃ bs, (readMemory 0x7f0000000000 8 s).1 = .ok bs := by
  have opened : Ascending (.ofConfig .default) := .opened (c := .default) rfl
  have allocated := opened.step (.lasting (o := .allocate (.ofParts 0 1) 5000)
    ⟨by decide, by decide, by decide⟩ ⟨nofun, nofun⟩)
  obtain ⟨s, hosted, isOpen, live, none, a, found, size⟩ : ∃ s : Session, s.Hosted ∧
      s.isOpen = true ∧ s.liveAllocations = 1 ∧ s.queues.values = [] ∧
      ∃ a, s.memory.allocationAt? 0x7f0000000000 = some a ∧ a.size = 8192 :=
    ⟨_, allocated.hosted, rfl, rfl, rfl, _, rfl, rfl⟩
  have inside : span 0x7f0000000000 8 ⊆ span 0x7f0000000000 a.size :=
    (span_subset_span (by decide)).mpr (by rw [size]; decide)
  obtain ⟨-, reads, -⟩ :=
    @Hosted.accesses_iff_permitted _ 0x7f0000000000 8 hosted isOpen (by decide)
  exact ⟨s, hosted, live, reads.mpr
    ⟨by decide, by decide, by simp [none], .inl ⟨0x7f0000000000, a, found, inside⟩⟩⟩

/-- A registered range that reaches beyond the last address gives no access, not even to its first
bytes. Nor can the end of the block be accessed that was allocated for a short ring, behind the
slots of the ring. -/
theorem not_accesses_past_end :
    (∃ s : Session, s.Hosted ∧ s.isOpen = true ∧ s.queues.values = [] ∧
      s.memory.registrationCount 0xfffffffffffffff0 16 = 1 ∧
      0xfffffffffffffff0 + 8 ≤ 2 ^ 64 - 1 ∧
      span 0xfffffffffffffff0 8 ⊆ span 0xfffffffffffffff0 16 ∧
      isAccessible 0xfffffffffffffff0 8 s = (.ok false, s)) ∧
    ∃ (s : Session) (q : Queue) (a : Allocation), s.Hosted ∧ s.isOpen = true ∧
      s.queues.values = [q] ∧ q.ringAllocation = some 0x7f0000000000 ∧
      s.memory.allocationAt? 0x7f0000000000 = some a ∧
      Disjoint (span 0x7f0000000080 8) (span 0x7f0000000000 (PacketRing.storageBytes q.size)) ∧
      span 0x7f0000000080 8 ⊆ span 0x7f0000000000 a.size ∧
      isAccessible 0x7f0000000080 8 s = (.ok false, s) := by
  have opened : Ascending (.ofConfig .default) := .opened (c := .default) rfl
  constructor
  · have registered := opened.step (.lasting (o := .register 0xfffffffffffffff0 16)
      ⟨by decide, by decide, by decide⟩ ⟨nofun, nofun⟩)
    exact ⟨_, registered.hosted, rfl, rfl, rfl, by decide,
      (span_subset_span (by decide)).mpr (by decide), rfl⟩
  · have signalled := opened.step (.lasting (o := .createSignal 0 0 [])
      ⟨by decide, by decide, by decide⟩ ⟨nofun, nofun⟩)
    have queued := signalled.step
      (.lasting (o := .createSoftQueue (.ofParts 0 1) 2 .multi .agentDispatch (.ofParts 0 1))
        ⟨by decide, by decide, by decide⟩ ⟨nofun, nofun⟩)
    exact ⟨_, _, _, queued.hosted, rfl, rfl, rfl, rfl,
      (disjoint_span (by decide) (by decide)).mpr (by decide),
      (span_subset_span (by decide)).mpr (by decide), rfl⟩

end Session

end Accelerator
