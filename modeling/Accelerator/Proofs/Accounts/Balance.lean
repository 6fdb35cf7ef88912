import Accelerator.Proofs.Accounts.Books
import Accelerator.Proofs.Runs.Hosted

/-!
# The books balance

In every session that runs lead to, on any sound host, the numbers that agents, regions and the
session keep are exact: they agree with the live queues and allocations, and stay within their
limits. So nothing that is ever taken off a number is more than stands there, and when a session has
been shut down, all of them are 0.

The books are kept for the stakes of the live queues. Operations that make a queue add a stake,
tearing a queue down settles one, and nothing else changes the stakes.

## Why there are two statements

The numbers are words. A word that is taken below 0 goes round, and comes back when the same is
added again. So that the numbers are right after an operation does not say that they were right all
along: shutting down takes off one number after another before anybody looks. `Balanced` is about
the sessions between operations, `Solvent` about each place where something is taken off.

One lemma gives both for each change: that what is given back was covered, and the books after it.
The first half is what makes the second half true.

## Main definitions

* `Session.Balanced`: the numbers are exact and within their limits.
* `Session.Solvent`: what is taken off a number stands there.
* `Session.Cleared`: all numbers are 0.

## Main results

* `Session.Books.perform`: operations leave the books right.
* `Session.Hosted.accounts_balance`: sessions are balanced and solvent, and shutting down clears
  them.
-/

namespace Accelerator

variable {stakes others : List Stake} {q : Queue} {h : Handle}

/-- The ring of a soft queue can be taken back. -/
theorem Memory.WellFormed.free_ring {m : Memory} (wf : m.WellFormed) {address : UInt64}
    (listed : address ∈ ringStarts m.allocations) :
    ∃ a n, m.free address .queueRing = .ok (a, n) := by
  obtain ⟨⟨_, a⟩, inside, rfl⟩ := List.mem_map.mp listed
  obtain ⟨held, ring⟩ := List.mem_filter.mp inside
  obtain ⟨n, freed⟩ := wf.exists_free (wf.allocationAt?_eq_some.mpr held)
  have usage : a.usage = .queueRing := of_decide_eq_true ring
  exact ⟨a, n, usage ▸ freed⟩

namespace Session

open Accelerator.Action

variable {s t : Session}

/-! ### Tearing queues down -/

/-- The three books of a session, when the queues with the given stakes have not been torn down
yet. -/
structure Books (stakes : List Stake) (s : Session) : Prop where
  places : s.Places stakes
  bytes : Bytes s.memory.allocations s.regions
  rings : Rings stakes s.memory.allocations
  memory : s.memory.WellFormed

/-- What a queue gives back when it is torn down was taken: a place that is counted, and for its
ring a block whose bytes are in use. -/
structure Covers (s : Session) (q : Queue) : Prop where
  place : s.CoversPlace q.agent
  ring : ∀ address, q.ringAllocation = some address → ∃ a memory,
    s.memory.free address .queueRing = .ok (a, memory) ∧ CoversBlock s.regions a

namespace Books

theorem perm (books : Books stakes s) (same : stakes.Perm others) : Books others s :=
  ⟨books.places.perm same, books.bytes, books.rings.perm same (.refl _), books.memory⟩

theorem giveUpPlace (books : Books (q.stake :: stakes) s) :
    s.CoversPlace q.agent ∧ Places stakes (s.giveUpPlace q) ∧
      (s.giveUpPlace q).regions = s.regions := by
  rcases s.giveUpPlace_cases q with ⟨h, signals, agent, same⟩ | ⟨agent, same⟩
  · obtain ⟨covered, places⟩ := books.places.dropQueue agent
    rw [same, agent]
    exact ⟨covered, places.congr rfl rfl rfl, rfl⟩
  · obtain ⟨covered, places⟩ := books.places.dropSoftQueue agent
    rw [same, agent]
    exact ⟨covered, places, rfl⟩

/-- Tearing a queue down settles its stake, which was covered. -/
theorem tearDown (books : Books (q.stake :: stakes) s) :
    s.Covers q ∧ Books stakes (s.tearDown q) := by
  obtain ⟨place, places, regions⟩ := books.giveUpPlace
  have memory := s.memory_giveUpPlace q
  have soft : q.agent = none ↔ q.ringAllocation ≠ none :=
    books.rings.soft q.stake List.mem_cons_self
  rcases s.tearDown_cases q with ⟨same, unused | refused⟩ | ⟨address, a, m, ring, freed, same⟩
  · rw [same]
    obtain ⟨h, hosted⟩ := Option.ne_none_iff_exists'.mp fun none => soft.mp none unused
    have stake : q.stake = ⟨some h, none⟩ := by rw [Queue.stake, hosted, unused]
    have rings := Rings.cons_hardware.mp (stake ▸ books.rings)
    exact ⟨⟨place, by simp [unused]⟩, places, memory ▸ regions ▸ books.bytes, memory ▸ rings,
      memory ▸ books.memory⟩
  · obtain ⟨address, e, ring, refused⟩ := refused
    have listed : address ∈ ringStarts s.memory.allocations :=
      books.rings.starts.mem_iff.mpr (List.mem_filterMap.mpr ⟨_, List.mem_cons_self, ring⟩)
    obtain ⟨a, n, freed⟩ := books.memory.free_ring listed
    cases freed.symm.trans refused
  · have moved := books.memory.perm_free freed
    obtain ⟨covered, bytes⟩ := (books.bytes.perm moved).release
    have stake : q.stake = ⟨none, some address⟩ := by
      rw [Queue.stake, ring, soft.mpr (by simp [ring])]
    have rings := books.rings.perm (.refl _) moved
    rw [stake] at rings
    have left := (Rings.cons_ring (Memory.free_eq_ok freed).2.1).mp rings
    refine ⟨⟨place, fun k taken => ?_⟩, ?_⟩
    · obtain rfl := Option.some.inj (ring.symm.trans taken)
      exact ⟨a, m, freed, covered⟩
    · rw [same]
      refine ⟨places.congr rfl rfl rfl, ?_, left, books.memory.free freed⟩
      exact (congrArg (fun r : Arena Region => Bytes m.allocations
        (r.modify a.region (·.release a.size))) regions).mpr bytes

/-- Tearing queues down settles their stakes. -/
theorem foldl_tearDown {qs : List Queue} (books : Books (qs.map Queue.stake ++ stakes) s) :
    Books stakes (qs.foldl Session.tearDown s) := by
  induction qs generalizing s with
  | nil => exact books
  | cons q rest ih => exact ih books.tearDown.2

end Books

/-! ### Handing out and taking back -/

namespace Books

variable {m : Memory} {r : Region}

/-- The books of sessions that differ in nothing that has to do with them. -/
theorem of_same (books : Books stakes s) (config : t.config = s.config)
    (agents : t.agents = s.agents) (regions : t.regions = s.regions)
    (soft : t.softQueues = s.softQueues) (blocks : t.memory.allocations = s.memory.allocations)
    (memory : t.memory.WellFormed) : Books stakes t :=
  ⟨books.places.congr agents soft config, blocks ▸ regions ▸ books.bytes, blocks ▸ books.rings,
    memory⟩

theorem of_sameAccounts (books : Books (s.queues.values.map Queue.stake) s)
    (same : s.SameAccounts t) : Books (t.queues.values.map Queue.stake) t := by
  obtain ⟨contents, refilled⟩ := same.memory
  rw [same.stakes]
  exact books.of_same same.config same.agents same.regions same.softQueues
    (by rw [refilled])
    (refilled ▸ ⟨books.memory.placed, books.memory.ordered, books.memory.counted⟩)

/-- A region hands out a block. -/
theorem allocate (books : Books stakes s) (sound : s.memory.HostSound)
    (live : s.regions.get? h = some r) {size alignment start rounded : UInt64}
    {usage : AllocationUse}
    (taken : s.memory.allocate r size alignment usage = .ok (start, rounded, m)) :
    ∃ a, a.usage = usage ∧ m.allocations.Perm ((start, a) :: s.memory.allocations) ∧
      Bytes m.allocations (s.regions.modify r.handle (·.reserve rounded)) ∧ m.WellFormed := by
  have wf := books.memory.allocate sound taken
  obtain ⟨named, -⟩ := books.bytes.balanced h r live
  obtain ⟨planned, host, -, rfl⟩ := Memory.allocate_eq_ok taken
  have moved := Memory.perm_insertAllocation start
    ⟨rounded, r.handle, r.owners.head?, .readWrite, usage⟩ s.memory.allocations
  have bytes : Bytes ((start, ⟨rounded, r.handle, r.owners.head?, .readWrite, usage⟩) :: _) _ :=
    books.bytes.reserve (named ▸ live) planned
  exact ⟨_, rfl, moved, bytes.perm moved.symm, wf⟩

/-- An allocation of the application is taken back. It was covered. -/
theorem free (books : Books stakes s) {address : UInt64} {a : Allocation}
    (freed : s.memory.free address .application = .ok (a, m)) :
    CoversBlock s.regions a ∧ Books stakes ({ s with memory := m }.releaseAllocation a) := by
  have moved := books.memory.perm_free freed
  obtain ⟨covered, bytes⟩ := (books.bytes.perm moved).release
  have rings := books.rings.perm (.refl _) moved
  rw [Rings.cons_application (Memory.free_eq_ok freed).2.1] at rings
  exact ⟨covered, books.places.congr rfl rfl rfl, bytes, rings, books.memory.free freed⟩

/-- The stakes of the live queues, after another has been made. -/
theorem insert (wf : s.queues.WellFormed Queue.handle) (q : Queue)
    (books : Books (q.stake :: s.queues.values.map Queue.stake) t)
    (queues : t.queues = s.queues.insert q) : Books (t.queues.values.map Queue.stake) t := by
  have listed := (wf.live.perm_values_insert q).map Queue.stake
  exact books.perm (queues ▸ listed.symm)

end Books

/-! ### Along a run -/

/-- The books are right for the live queues. In a session that has been shut down there are neither
queues nor allocations. -/
structure Kept (s : Session) : Prop where
  books : Books (s.queues.values.map Queue.stake) s
  closed : s.isOpen = false → s.queues.values = [] ∧ s.memory.allocations = []

namespace Kept

theorem of_sameAccounts (kept : s.Kept) (same : s.SameAccounts t) : t.Kept where
  books := kept.books.of_sameAccounts same
  closed isClosed := by
    obtain ⟨none, empty⟩ := kept.closed (same.isOpen ▸ isClosed)
    obtain ⟨contents, refilled⟩ := same.memory
    refine ⟨?_, by rw [refilled]; exact empty⟩
    rw [← List.map_eq_nil_iff (f := Queue.stake), same.stakes, none, List.map_nil]

theorem of_open (books : Books (t.queues.values.map Queue.stake) t) (isOpen : t.isOpen = true) :
    t.Kept :=
  ⟨books, fun isClosed => absurd (isOpen.symm.trans isClosed) (by decide)⟩

/-- Changes of the memory map that leave the allocations. -/
theorem of_memory (kept : s.Kept) {m : Memory} (same : m.allocations = s.memory.allocations)
    (wf : m.WellFormed) : Kept { s with memory := m } where
  books := kept.books.of_same rfl rfl rfl rfl same wf
  closed isClosed := ⟨(kept.closed isClosed).1, same.trans (kept.closed isClosed).2⟩

theorem allocate (kept : s.Kept) (sound : s.memory.HostSound) (isOpen : s.isOpen = true)
    {r : Region} {size start rounded : UInt64} {m : Memory} (live : s.regions.get? h = some r)
    (taken : s.memory.allocate r size r.info.alignment .application = .ok (start, rounded, m)) :
    Kept ({ s with memory := m }.modifyRegion r.handle (·.reserve rounded)) := by
  obtain ⟨a, application, moved, bytes, wf⟩ := kept.books.allocate sound live taken
  refine .of_open ⟨kept.books.places.congr rfl rfl rfl, bytes, ?_, wf⟩ isOpen
  exact ((Rings.cons_application application).mpr kept.books.rings).perm (.refl _) moved.symm

theorem free (kept : s.Kept) {address : UInt64} {a : Allocation} {m : Memory}
    (freed : s.memory.free address .application = .ok (a, m)) :
    Kept ({ s with memory := m }.releaseAllocation a) := by
  refine ⟨(kept.books.free freed).2, fun isClosed => ⟨(kept.closed isClosed).1, ?_⟩⟩
  have moved := kept.books.memory.perm_free freed
  rw [(kept.closed isClosed).2] at moved
  cases moved.nil_eq

theorem assign (kept : s.Kept) {address : UInt64} {agent : Handle} {access : AccessPermission}
    {m : Memory} (given : s.memory.assign s.isFineGrained address agent access = .ok m) :
    Kept { s with memory := m } := by
  have wf := kept.books.memory.assign given
  obtain ⟨give, rfl, alike⟩ := kept.books.memory.assign_eq_ok given
  refine ⟨⟨kept.books.places.congr rfl rfl rfl, kept.books.bytes.give alike,
    kept.books.rings.give alike, wf⟩, fun isClosed => ⟨(kept.closed isClosed).1, ?_⟩⟩
  exact List.map_eq_nil_iff.mpr (kept.closed isClosed).2

theorem createQueue (kept : s.Kept) (wf : s.WellFormed) {size : UInt32} {type : QueueType}
    {a : Agent} {base : UInt64} {host : Host} (placement : s.Placement h size type a base host)
    (stake : q.stake = ⟨some a.handle, none⟩) : (s.withHardwareQueue a q host).Kept := by
  obtain ⟨placed, ordered, counted⟩ := kept.books.memory
  have live := wf.agents h a placement.live ▸ placement.live
  have places := kept.books.places.addQueue live placement.room (congrArg Stake.agent stake)
  refine .of_open (Books.insert wf.queues q ⟨?_, kept.books.bytes, ?_, placed, ordered, counted⟩
    rfl) placement.isOpen
  · exact places.congr rfl rfl rfl
  · rw [stake]
    exact Rings.cons_hardware.mpr kept.books.rings

theorem createSoftQueue (kept : s.Kept) (wf : s.WellFormed) (sound : s.memory.HostSound)
    (isOpen : s.isOpen = true) {r : Region} {size start rounded : UInt64} {m : Memory}
    (live : s.regions.get? h = some r) (room : s.softQueues < s.config.softQueueCapacity)
    (taken : s.memory.allocate r size (.ofNat Packet.alignment) .queueRing =
      .ok (start, rounded, m))
    (stake : q.stake = ⟨none, some start⟩) : Kept { s.modifyRegion r.handle (·.reserve rounded) with
      softQueues := s.softQueues + 1
      memory := m
      queues := s.queues.insert q
      nextQueueId := s.nextQueueId + 1 } := by
  obtain ⟨a, ring, moved, bytes, placed⟩ := kept.books.allocate sound live taken
  have places := kept.books.places.addSoftQueue room (congrArg Stake.agent stake)
  refine .of_open (Books.insert wf.queues q ⟨places.congr rfl rfl rfl, bytes, ?_, placed⟩ rfl)
    isOpen
  rw [stake]
  exact ((Rings.cons_ring ring).mpr kept.books.rings).perm (.refl _) moved.symm

/-- A queue that is taken out leaves its stake outstanding. -/
theorem remove (kept : s.Kept) {queues : Directory Queue}
    (removed : s.queues.remove h Queue.destroy = some (q, queues)) :
    Books (q.stake :: queues.values.map Queue.stake) { s with queues } := by
  obtain ⟨⟨value, live⟩, found, same⟩ := Option.map_eq_some_iff.mp removed
  cases same
  have listed := (Arena.perm_values_remove found).map Queue.stake
  exact (kept.books.perm listed).of_same rfl rfl rfl rfl rfl kept.books.memory

theorem destroyQueue (kept : s.Kept) {queues : Directory Queue}
    (removed : s.queues.remove h Queue.destroy = some (q, queues)) :
    Kept ({ s with queues }.tearDown q) := by
  obtain ⟨-, books⟩ := (kept.remove removed).tearDown
  have unchanged := sameQueues_tearDown { s with queues } q
  refine ⟨unchanged.queues ▸ books, fun isClosed => ?_⟩
  -- there are no queues in a session that has been shut down
  obtain ⟨⟨value, live⟩, found, -⟩ := Option.map_eq_some_iff.mp removed
  have listed := Arena.perm_values_remove found
  have none : s.queues.live.values = [] := (kept.closed (unchanged.isOpen ▸ isClosed)).1
  rw [none] at listed
  cases listed.nil_eq

end Kept

/-- The bytes of some of the blocks have been taken off the accounts. -/
theorem bytes_releaseBlocks {blocks rest : List (UInt64 × Allocation)} {regions : Arena Region}
    (bytes : Bytes (blocks ++ rest) regions) : Bytes rest (releaseBlocks blocks regions) := by
  induction blocks generalizing regions with
  | nil => exact bytes
  | cons entry others ih => exact ih bytes.release.2

namespace Kept

/-- While a session is shut down, the stakes of the queues still to come are outstanding. -/
theorem drain (kept : s.Kept) {earlier later : List Queue}
    (split : s.queues.values = earlier ++ later) : Books (later.map Queue.stake)
      (earlier.foldl tearDown { s with queues := s.queues.drain Queue.destroy }) := by
  refine Books.foldl_tearDown ?_
  rw [← List.map_append, ← split]
  exact kept.books.of_same rfl rfl rfl rfl rfl kept.books.memory

theorem withoutQueues (kept : s.Kept) : Books [] s.withoutQueues :=
  kept.drain (List.append_nil _).symm

theorem ended (kept : s.Kept) : s.ended.Kept := by
  have books := kept.withoutQueues
  have bytes : Bytes [] (releaseBlocks s.withoutQueues.memory.allocations _) :=
    bytes_releaseBlocks (by rw [List.append_nil]; exact books.bytes)
  have none : s.withoutQueues.queues.values = [] :=
    s.queues_withoutQueues ▸ Arena.values_drain s.queues.live
  rw [Session.ended, releaseMemory_eq]
  refine ⟨?_, fun _ => ⟨none, rfl⟩⟩
  show Books (s.withoutQueues.queues.values.map Queue.stake) _
  rw [none]
  have nothing : ∀ {α : Type} {P : α → Prop}, ∀ entry ∈ ([] : List α), P entry :=
    fun _ listed => (List.not_mem_nil listed).elim
  exact ⟨books.places.congr rfl rfl rfl, bytes, ⟨nothing, .nil⟩, nothing, .nil, nothing⟩

theorem shutDown (kept : s.Kept) : Kept (Session.shutDown s).2 := by
  cases isOpen : s.isOpen with
  | true => exact shutDown_of_open isOpen ▸ kept.ended
  | false => rwa [shutDown_of_closed isOpen]

/-- Whatever the application does, the books stay right. -/
theorem effect (kept : s.Kept) (wf : s.WellFormed) (sound : s.memory.HostSound)
    (effect : s.Effect t) : t.Kept := by
  have ranges := kept.books.memory
  cases effect with
  | routine routine => exact kept.of_sameAccounts routine.sameAccounts
  | createSignal => exact ⟨kept.books.of_same rfl rfl rfl rfl rfl ranges, kept.closed⟩
  | allocate isOpen live taken => exact kept.allocate sound isOpen live taken
  | free freed => exact kept.free freed
  | assign given => exact kept.assign given
  | serve => exact kept.of_memory rfl ⟨ranges.placed, ranges.ordered, ranges.counted⟩
  | register address size count =>
    exact kept.of_memory rfl (ranges.setRegistrationCount address size count)
  | createQueue placement => exact kept.createQueue wf placement rfl
  | withdrawQueue placement made removed =>
    exact (kept.createQueue wf placement (congrArg Queue.stake made)).destroyQueue removed
  | createSoftQueue isOpen live room taken stake =>
    exact kept.createSoftQueue wf sound isOpen live room taken stake
  | destroyQueue removed => exact kept.destroyQueue removed
  | shutDown => exact kept.ended

end Kept

/-- The regions of a configuration know their handles, and have no bytes in use. -/
theorem region_openRegions (c : Config) (agents : Arena Agent) (h : Handle) (r : Region)
    (found : (openRegions c agents).get? h = some r) : r.handle = h ∧ r.inUse = 0 := by
  let make := fun (h : Handle) (r : RegionConfig) =>
    Region.ofInfo h r.info (r.owners.filterMap (agentNamed? agents))
  obtain ⟨region, -, rfl⟩ := @Arena.exists_of_get?_fill _ _ _ _ make _ found
  exact ⟨rfl, rfl⟩

/-- The books are right along every run. -/
theorem Hosted.kept (hosted : s.Hosted) : s.Kept := by
  induction hosted with
  | @opened c s opened =>
    have memory := (Hosted.opened opened).memory
    have wf := (Hosted.opened opened).wellFormed
    rw [openConfig_eq_ok opened] at memory wf ⊢
    refine .of_open ⟨⟨fun h a live => ?_, nofun, rfl, UInt32.zero_le⟩, ⟨fun h r live => ?_, nofun⟩,
      ⟨nofun, .nil⟩, memory⟩ rfl
    · obtain ⟨info, -, rfl⟩ := Arena.exists_of_get?_fill live
      exact ⟨rfl, rfl, UInt32.zero_le⟩
    · obtain ⟨named, unused⟩ := region_openRegions c _ h r live
      exact ⟨named, by rw [unused]; rfl, by rw [unused]; exact UInt64.zero_le⟩
  | rehost _ host kept =>
    exact kept.of_memory rfl ⟨kept.books.memory.placed, kept.books.memory.ordered,
      kept.books.memory.counted⟩
  | step before sound step kept =>
    cases step with
    | @application _ o room =>
      rcases reloads_or_effect room before.wellFormed.queues o with reloads | effect
      · exact kept.of_sameAccounts reloads.sameAccounts
      · exact kept.effect before.wellFormed sound effect
    | processor live stepped =>
      obtain ⟨p, deeds, -, move⟩ := Move.exists_of_stepProcessor? stepped
      exact kept.of_sameAccounts move.sameAccounts

/-- Queues are live in open sessions only. -/
theorem Hosted.isOpen_of_live {h : Handle} (hosted : s.Hosted) (live : s.queues.get? h = some q) :
    s.isOpen = true := by
  by_contra isClosed
  have none : s.queues.live.values = [] := (hosted.kept.closed (Bool.eq_false_iff.mpr isClosed)).1
  have listed : q ∈ s.queues.live.values :=
    hosted.wellFormed.queues.live.mem_values.mpr ⟨h, live⟩
  rw [none] at listed
  cases listed

/-! ### What the books say -/

/-- The numbers that are kept agree with the live queues and allocations, and are within their
limits. -/
structure Balanced (s : Session) : Prop where
  agents : ∀ h a, s.agents.get? h = some a →
    a.liveQueues.toNat = s.queues.values.countP (fun q => q.agent = some h) ∧
      a.liveQueues ≤ a.info.queueMaxCount
  softQueues : s.softQueues.toNat = s.queues.values.countP Queue.isSoft ∧
    s.softQueues ≤ s.config.softQueueCapacity
  regions : ∀ h r, s.regions.get? h = some r →
    r.inUse.toNat = bytesOf s.memory.allocations h ∧ r.inUse ≤ r.info.capacity
  /-- Sizes of allocations are rounded to the granule of their region. -/
  rounded : ∀ entry ∈ s.memory.allocations, ∃ r size, s.regions.get? entry.2.region = some r ∧
    size ≠ 0 ∧ r.info.roundedSize size = some entry.2.size
  soft : ∀ q ∈ s.queues.values, q.isSoft = true ↔ q.ringAllocation ≠ none
  /-- The allocations for rings are those of the soft queues, each of one of them. -/
  rings : (ringStarts s.memory.allocations).Perm (s.queues.values.filterMap Queue.ringAllocation)
  apart : (ringStarts s.memory.allocations).Nodup
  liveAllocations : s.liveAllocations =
    s.memory.allocations.countP (fun entry => entry.2.usage = .application) +
      s.queues.values.countP Queue.isSoft

/-- Whatever is taken off a number stands there: when a queue could not be made after its place had
been taken, when a queue is destroyed or an allocation freed, and at each step of shutting down. -/
structure Solvent (s : Session) : Prop where
  withdraw : ∀ h a, s.agents.get? h = some a → a.hasRoom = true →
    CoversPlace (s.modifyAgent h (·.addQueue)) (some h)
  withdrawSoft : s.softQueues < s.config.softQueueCapacity →
    CoversPlace { s with softQueues := s.softQueues + 1 } none
  destroy : ∀ h q queues, s.queues.remove h Queue.destroy = some (q, queues) →
    Covers { s with queues } q
  free : ∀ address a m, s.memory.free address .application = .ok (a, m) → CoversBlock s.regions a
  tearDown : ∀ earlier q later, s.queues.values = earlier ++ q :: later →
    Covers (earlier.foldl tearDown { s with queues := s.queues.drain Queue.destroy }) q
  release : ∀ earlier entry later,
    s.withoutQueues.memory.allocations = earlier ++ entry :: later →
    CoversBlock (releaseBlocks earlier s.withoutQueues.regions) entry.2

/-- Nothing is handed out. -/
structure Cleared (s : Session) : Prop where
  agents : ∀ h a, s.agents.get? h = some a → a.liveQueues = 0
  softQueues : s.softQueues = 0
  regions : ∀ h r, s.regions.get? h = some r → r.inUse = 0
  liveAllocations : s.liveAllocations = 0

/-- There are as many rings as soft queues. -/
theorem length_ringStarts {blocks : List (UInt64 × Allocation)} (rings : Rings stakes blocks) :
    (ringStarts blocks).length = stakes.countP (·.agent = none) := by
  rw [rings.starts.length_eq, List.length_filterMap_eq_countP]
  refine List.countP_congr fun stake listed => ?_
  rw [Option.isSome_iff_ne_none, decide_eq_true_eq]
  exact (rings.soft stake listed).symm

/-- An allocation is the application's, or it is a ring. -/
theorem length_eq_add_ringStarts (blocks : List (UInt64 × Allocation)) : blocks.length =
    blocks.countP (fun entry => entry.2.usage = .application) + (ringStarts blocks).length := by
  rw [List.length_eq_countP_add_countP (fun entry => entry.2.usage = .application), ringStarts,
    List.length_map, ← List.countP_eq_length_filter]
  congr 2
  funext entry
  cases entry.2.usage <;> rfl

theorem Kept.balanced (kept : s.Kept) : s.Balanced := by
  obtain ⟨places, bytes, rings, memory⟩ := kept.books
  have softQueues : (s.queues.values.map Queue.stake).countP (·.agent = none) =
      s.queues.values.countP Queue.isSoft := by
    rw [List.countP_map]
    refine List.countP_congr fun q _ => ?_
    show decide (q.agent = none) = true ↔ q.agent.isNone = true
    simp
  refine ⟨fun h a live => ?_, ⟨softQueues ▸ places.soft, places.softLimit⟩, fun h r live => ?_,
    fun entry listed => ?_, fun q listed => ?_, ?_, ?_, ?_⟩
  · obtain ⟨rfl, count, limit⟩ := places.agents h a live
    rw [List.countP_map] at count
    exact ⟨count, limit⟩
  · obtain ⟨rfl, sum, capacity⟩ := bytes.balanced h r live
    exact ⟨sum, capacity⟩
  · obtain ⟨info, size, found, rounded⟩ := bytes.rounded entry listed
    obtain ⟨r, live, rfl⟩ := Option.map_eq_some_iff.mp found
    exact ⟨r, size, live, rounded⟩
  · rw [Queue.isSoft, Option.isNone_iff_eq_none]
    exact rings.soft q.stake (List.mem_map_of_mem listed)
  · refine rings.starts.trans (.of_eq ?_)
    rw [List.filterMap_map]
    rfl
  · exact List.pairwise_map.mpr ((memory.starts_ascend.filter _).imp fun lt same =>
      lt.ne (congrArg _ same))
  · rw [Session.liveAllocations, length_eq_add_ringStarts, length_ringStarts rings, softQueues]

theorem Kept.solvent (kept : s.Kept) : s.Solvent where
  withdraw h a live room := by
    have places : Places (⟨some h, none⟩ :: _) _ := kept.books.places.addQueue live room rfl
    exact (places.dropQueue rfl).1
  withdrawSoft room := by
    have places : Places (⟨none, none⟩ :: _) _ := kept.books.places.addSoftQueue room rfl
    exact (places.dropSoftQueue rfl).1
  destroy h q queues removed := (kept.remove removed).tearDown.1
  free address a m freed := (kept.books.free freed).1
  tearDown earlier q later split := (kept.drain split).tearDown.1
  release earlier entry later split :=
    (bytes_releaseBlocks (split ▸ kept.withoutQueues.bytes)).release.1

theorem Kept.cleared (kept : s.Kept) (isClosed : s.isOpen = false) : s.Cleared := by
  obtain ⟨none, empty⟩ := kept.closed isClosed
  have balanced := kept.balanced
  refine ⟨fun h a live => ?_, ?_, fun h r live => ?_, ?_⟩
  · have count := (balanced.agents h a live).1
    rw [none] at count
    exact UInt32.toNat_inj.mp count
  · have count := balanced.softQueues.1
    rw [none] at count
    exact UInt32.toNat_inj.mp count
  · have sum := (balanced.regions h r live).1
    rw [empty] at sum
    exact UInt64.toNat_inj.mp sum
  · rw [Session.liveAllocations, empty, List.length_nil]

theorem isOpen_shutDown (s : Session) : (shutDown s).2.isOpen = false := by
  cases isOpen : s.isOpen with
  | true =>
    obtain ⟨m, -, same⟩ := shutDown_eq isOpen
    rw [same]
  | false => rw [shutDown_of_closed isOpen, isOpen]

/-- In every session that runs lead to, the numbers of queues and bytes are exact, and nothing is
ever taken off a number that does not stand there. When the session is shut down, all of them are
0. -/
theorem Hosted.accounts_balance (hosted : s.Hosted) :
    s.Balanced ∧ s.Solvent ∧ Cleared (shutDown s).2 :=
  ⟨hosted.kept.balanced, hosted.kept.solvent, hosted.kept.shutDown.cleared s.isOpen_shutDown⟩

/-- A soft queue and an allocation of the application. -/
theorem accounts_of_soft_queue : ∃ s : Session, s.Hosted ∧ s.softQueues = 1 ∧
    s.liveAllocations = 2 ∧ s.Balanced ∧ Cleared (shutDown s).2 := by
  have opened : Ascending (.ofConfig .default) := .opened (c := .default) rfl
  have signalled := opened.step (.lasting (o := .createSignal 0 0 [])
    ⟨by decide, by decide, by decide⟩ ⟨nofun, nofun⟩)
  have queued := signalled.step
    (.lasting (o := .createSoftQueue (.ofParts 0 1) 2 .multi .agentDispatch (.ofParts 0 1))
      ⟨by decide, by decide, by decide⟩ ⟨nofun, nofun⟩)
  have allocated := queued.step (.lasting (o := .allocate (.ofParts 0 1) 5000)
    ⟨by decide, by decide, by decide⟩ ⟨nofun, nofun⟩)
  obtain ⟨balanced, -, cleared⟩ := allocated.hosted.accounts_balance
  exact ⟨_, allocated.hosted, rfl, rfl, balanced, cleared⟩

end Session

end Accelerator
