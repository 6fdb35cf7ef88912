import Accelerator.Proofs.Memory.Changes
import Accelerator.Proofs.Runs.Outcomes

/-!
# Keeping the books

Four numbers tell what has been handed out: each agent and the session count the queues that have
taken a place of theirs, each region adds up the bytes of its blocks, and the memory map lists the
blocks. What has been handed out lies with queues and with the blocks on that list. The books are
right if the numbers agree with that.

Books are kept for a list of stakes rather than for the queues of a session. While a session is shut
down all queues are taken out at once and torn down one after the other. In between, the stakes of
the queues still to come are outstanding although the session has no queues any more.

## Lists up to their order

Blocks stand in the order of their addresses, queues in the order of their handles, and what is
given back may stand anywhere. Each book has one lemma for something more at the head of its list,
one for something less, and one for a permutation of the list. No lemma is about the middle.

## Main definitions

* `Session.Places`, `Bytes`, `Rings`: the three books; the order of stakes and of blocks is all the
  same to them.
* `Session.Books`: all of them.
* `Session.CoversPlace`, `Session.CoversBlock`: what is to be taken off a number stands there.

## Main results

* `Session.Places.giveUp`, `Bytes.release`: what is given back was covered.
* `Session.Books.tearDown`: tearing a queue down settles its stake.
-/

namespace Accelerator

/-! ### Counting -/

section Words

variable {a b : UInt32}

theorem toNat_succ_of_lt (below : a < b) : (a + 1).toNat = a.toNat + 1 := by
  have small := b.toNat_lt
  rw [UInt32.lt_iff_toNat_lt] at below
  rw [UInt32.toNat_add]
  change (a.toNat + 1) % 2 ^ 32 = _
  omega

theorem toNat_pred_of_pos (positive : 0 < a.toNat) : (a - 1).toNat = a.toNat - 1 :=
  UInt32.toNat_sub_of_le a 1 (UInt32.le_iff_toNat_le.mpr positive)

end Words

/-! ### Blocks of regions -/

variable {stakes others : List Stake} {stake : Stake} {blocks rest : List (UInt64 × Allocation)}
variable {entry : UInt64 × Allocation} {regions : Arena Region} {h : Handle} {r : Region}

/-- The bytes of the blocks of a region. -/
def bytesOf (blocks : List (UInt64 × Allocation)) (h : Handle) : Nat :=
  ((blocks.filter fun entry => entry.2.region = h).map fun entry => entry.2.size.toNat).sum

theorem bytesOf_cons : bytesOf (entry :: blocks) h =
    (if entry.2.region = h then entry.2.size.toNat else 0) + bytesOf blocks h := by
  by_cases same : entry.2.region = h
  · simp [bytesOf, same]
  · simp [bytesOf, same]

theorem bytesOf_perm (same : blocks.Perm rest) (h : Handle) : bytesOf blocks h = bytesOf rest h :=
  ((same.filter _).map _).sum_nat

/-- The bytes in use of a region are those of its blocks, and no more than it can hold. -/
structure Region.Balances (r : Region) (blocks : List (UInt64 × Allocation)) : Prop where
  sum : r.inUse.toNat = bytesOf blocks r.handle
  capacity : r.inUse ≤ r.info.capacity

/-- Each region adds up the bytes of its blocks, whose sizes are rounded to the region's granule. -/
structure Bytes (blocks : List (UInt64 × Allocation)) (regions : Arena Region) : Prop where
  balanced : ∀ h r, regions.get? h = some r → r.handle = h ∧ r.Balances blocks
  rounded : ∀ entry ∈ blocks, ∃ info size,
    (regions.get? entry.2.region).map (·.info) = some info ∧ size ≠ 0 ∧
      info.roundedSize size = some entry.2.size

/-- The region of a block has at least the bytes of the block in use. -/
def CoversBlock (regions : Arena Region) (a : Allocation) : Prop :=
  ∃ r, regions.get? a.region = some r ∧ a.size ≤ r.inUse

/-- A region with room for a block counts the bytes of the block correctly. -/
theorem Region.inUse_reserve {size : UInt64} (room : r.canReserve size = true) :
    (r.reserve size).inUse.toNat = r.inUse.toNat + size.toNat ∧
      (r.reserve size).inUse ≤ r.info.capacity := by
  rw [canReserve] at room
  split at room
  · cases room
  case h_2 total sum =>
    have same : r.inUse + size = total := by
      rw [Word.add?] at sum
      split at sum
      · exact Option.some.inj sum
      · cases sum
    exact ⟨(congrArg _ same).trans (Word.add?_eq_some.mp sum),
      (congrArg (· ≤ _) same).mpr (of_decide_eq_true room)⟩

namespace Bytes

theorem perm (bytes : Bytes blocks regions) (same : blocks.Perm rest) : Bytes rest regions where
  balanced h r live := by
    obtain ⟨named, sum, capacity⟩ := bytes.balanced h r live
    exact ⟨named, sum.trans (bytesOf_perm same r.handle), capacity⟩
  rounded entry listed := bytes.rounded entry (same.mem_iff.mpr listed)

/-- Sizes are rounded as before when the number of bytes in use is changed. -/
theorem rounded_modify (bytes : Bytes blocks regions) {f : Region → Region}
    (kept : ∀ r, (f r).info = r.info) (h : Handle) : ∀ entry ∈ blocks, ∃ info size,
      ((regions.modify h f).get? entry.2.region).map (·.info) = some info ∧ size ≠ 0 ∧
        info.roundedSize size = some entry.2.size := by
  intro entry listed
  rw [Arena.map_get?_modify kept]
  exact bytes.rounded entry listed

/-- A block is handed out. -/
theorem reserve (bytes : Bytes blocks regions) (live : regions.get? entry.2.region = some r)
    {size : UInt64} (planned : Memory.plan r size = .ok entry.2.size) :
    Bytes (entry :: blocks) (regions.modify entry.2.region (·.reserve entry.2.size)) := by
  obtain ⟨positive, rounded, room⟩ := Memory.plan_eq_ok planned
  obtain ⟨named, sum, -⟩ := bytes.balanced _ r live
  obtain ⟨total, within⟩ := Region.inUse_reserve room
  refine ⟨Arena.forall_get?_modify (fun before held => ?_) fun h other apart held => ?_,
    List.forall_mem_cons.mpr ⟨⟨r.info, size, ?_, positive, rounded⟩,
      bytes.rounded_modify (f := (·.reserve entry.2.size)) (fun _ => rfl) _⟩⟩
  · obtain rfl : r = before := Option.some.inj (live.symm.trans held)
    refine ⟨named, ?_, within⟩
    show _ = bytesOf (entry :: blocks) r.handle
    rw [bytesOf_cons, if_pos named.symm, total, sum, Nat.add_comm]
  · obtain ⟨named, sum, capacity⟩ := bytes.balanced h other held
    refine ⟨named, ?_, capacity⟩
    rw [bytesOf_cons, if_neg (named ▸ apart.symm), sum, Nat.zero_add]
  · rw [Arena.get?_modify_self, live]
    rfl

/-- A block is taken back. Its bytes were in use. -/
theorem release (bytes : Bytes (entry :: blocks) regions) : CoversBlock regions entry.2 ∧
    Bytes blocks (regions.modify entry.2.region (·.release entry.2.size)) := by
  obtain ⟨earlier, others⟩ := List.forall_mem_cons.mp bytes.rounded
  obtain ⟨_, _, found, -⟩ := earlier
  obtain ⟨r, live, -⟩ := Option.map_eq_some_iff.mp found
  obtain ⟨named, sum, capacity⟩ := bytes.balanced _ r live
  rw [bytesOf_cons, if_pos named.symm] at sum
  have covered : entry.2.size ≤ r.inUse := UInt64.le_iff_toNat_le.mpr (by omega)
  have left : (r.release entry.2.size).inUse.toNat = r.inUse.toNat - entry.2.size.toNat :=
    UInt64.toNat_sub_of_le _ _ covered
  refine ⟨⟨r, live, covered⟩, Arena.forall_get?_modify (fun before held => ?_)
    fun h other apart held => ?_, fun other listed => ?_⟩
  · obtain rfl : r = before := Option.some.inj (live.symm.trans held)
    refine ⟨named, ?_, UInt64.le_iff_toNat_le.mpr ?_⟩
    · rw [left, sum, Nat.add_sub_cancel_left]
      rfl
    · rw [UInt64.le_iff_toNat_le] at capacity
      exact (left.le.trans (Nat.sub_le _ _)).trans capacity
  · obtain ⟨named, sum, capacity⟩ := bytes.balanced h other held
    rw [bytesOf_cons, if_neg (named ▸ apart.symm), Nat.zero_add] at sum
    exact ⟨named, sum, capacity⟩
  · rw [Arena.map_get?_modify (by exact fun _ => rfl)]
    exact others other listed

/-- Blocks may change hands. -/
theorem give (bytes : Bytes blocks regions) {give : UInt64 × Allocation → UInt64 × Allocation}
    (same : ∀ entry ∈ blocks, Memory.SameBlock entry (give entry)) :
    Bytes (blocks.map give) regions where
  balanced h r live := by
    have kept : ∀ xs : List (UInt64 × Allocation),
        (∀ entry ∈ xs, Memory.SameBlock entry (give entry)) →
        bytesOf (xs.map give) r.handle = bytesOf xs r.handle := by
      intro xs
      induction xs with
      | nil => exact fun _ => rfl
      | cons x xs ih =>
        intro same
        obtain ⟨first, others⟩ := List.forall_mem_cons.mp same
        rw [List.map_cons, bytesOf_cons, bytesOf_cons, ih others, first.region, first.size]
    obtain ⟨named, sum, capacity⟩ := bytes.balanced h r live
    exact ⟨named, sum.trans (kept blocks same).symm, capacity⟩
  rounded entry listed := by
    obtain ⟨before, held, rfl⟩ := List.mem_map.mp listed
    have kept := same before held
    rw [kept.region, kept.size]
    exact bytes.rounded before held

end Bytes

/-! ### Rings of soft queues -/

/-- Where the rings on a list of blocks start. -/
def ringStarts (blocks : List (UInt64 × Allocation)) : List UInt64 :=
  (blocks.filter fun entry => entry.2.usage = .queueRing).map (·.1)

/-- Soft queues have a ring on the list of blocks, each its own, and there are no other rings. -/
structure Rings (stakes : List Stake) (blocks : List (UInt64 × Allocation)) : Prop where
  soft : ∀ stake ∈ stakes, stake.agent = none ↔ stake.ring ≠ none
  starts : (ringStarts blocks).Perm (stakes.filterMap Stake.ring)

theorem ringStarts_perm (same : blocks.Perm rest) : (ringStarts blocks).Perm (ringStarts rest) :=
  (same.filter _).map _

theorem ringStarts_cons : ringStarts (entry :: blocks) =
    if entry.2.usage = .queueRing then entry.1 :: ringStarts blocks else ringStarts blocks := by
  by_cases ring : entry.2.usage = .queueRing
  · simp [ringStarts, ring]
  · simp [ringStarts, ring]

namespace Rings

theorem perm (rings : Rings stakes blocks) (same : stakes.Perm others) (moved : blocks.Perm rest) :
    Rings others rest where
  soft stake listed := rings.soft stake (same.mem_iff.mpr listed)
  starts := (ringStarts_perm moved).symm.trans (rings.starts.trans (same.filterMap _))

/-- A block of the application is no ring. -/
theorem cons_application (application : entry.2.usage = .application) :
    Rings stakes (entry :: blocks) ↔ Rings stakes blocks := by
  have same : ringStarts (entry :: blocks) = ringStarts blocks := by
    rw [ringStarts_cons, if_neg (by rw [application]; decide)]
  exact ⟨fun rings => ⟨rings.soft, same ▸ rings.starts⟩,
    fun rings => ⟨rings.soft, same ▸ rings.starts⟩⟩

/-- A soft queue has a block for its ring. -/
theorem cons_ring {start : UInt64} {a : Allocation} (ring : a.usage = .queueRing) :
    Rings (⟨none, some start⟩ :: stakes) ((start, a) :: blocks) ↔ Rings stakes blocks := by
  have same : ringStarts ((start, a) :: blocks) = start :: ringStarts blocks := by
    rw [ringStarts_cons, if_pos ring]
  have listed : (⟨none, some start⟩ :: stakes).filterMap Stake.ring =
      start :: stakes.filterMap Stake.ring := rfl
  constructor
  · rintro ⟨soft, starts⟩
    rw [same, listed] at starts
    exact ⟨fun stake inside => soft stake (List.mem_cons_of_mem _ inside), starts.cons_inv⟩
  · rintro ⟨soft, starts⟩
    refine ⟨List.forall_mem_cons.mpr ⟨by simp, soft⟩, ?_⟩
    rw [same, listed]
    exact starts.cons start

/-- A hardware queue has no block. -/
theorem cons_hardware : Rings (⟨some h, none⟩ :: stakes) blocks ↔ Rings stakes blocks := by
  constructor
  · rintro ⟨soft, starts⟩
    exact ⟨fun stake inside => soft stake (List.mem_cons_of_mem _ inside), starts⟩
  · rintro ⟨soft, starts⟩
    exact ⟨List.forall_mem_cons.mpr ⟨by simp, soft⟩, starts⟩

theorem give (rings : Rings stakes blocks) {give : UInt64 × Allocation → UInt64 × Allocation}
    (same : ∀ entry ∈ blocks, Memory.SameBlock entry (give entry)) :
    Rings stakes (blocks.map give) where
  soft := rings.soft
  starts := by
    have kept : ∀ xs : List (UInt64 × Allocation),
        (∀ entry ∈ xs, Memory.SameBlock entry (give entry)) →
        ringStarts (xs.map give) = ringStarts xs := by
      intro xs
      induction xs with
      | nil => exact fun _ => rfl
      | cons x xs ih =>
        intro same
        obtain ⟨first, others⟩ := List.forall_mem_cons.mp same
        rw [List.map_cons, ringStarts_cons, ringStarts_cons, ih others, first.usage, first.start]
    rw [kept blocks same]
    exact rings.starts

end Rings

/-! ### Places of queues -/

/-- The queues that an agent counts are those that have taken a place of it, and no more than it
may have. -/
structure Agent.Balances (a : Agent) (stakes : List Stake) : Prop where
  count : a.liveQueues.toNat = stakes.countP (·.agent = some a.handle)
  limit : a.liveQueues ≤ a.info.queueMaxCount

namespace Session

variable {s t : Session} {a : Agent}

/-- Agents, and the session for soft queues, count the queues that have taken a place of theirs. -/
structure Places (stakes : List Stake) (s : Session) : Prop where
  agents : ∀ h a, s.agents.get? h = some a → a.handle = h ∧ a.Balances stakes
  hosted : ∀ stake ∈ stakes, ∀ h, stake.agent = some h → (s.agents.get? h).isSome = true
  soft : s.softQueues.toNat = stakes.countP (·.agent = none)
  softLimit : s.softQueues ≤ s.config.softQueueCapacity

/-- A place that a queue has taken is counted: by its agent, or by the session. -/
def CoversPlace (s : Session) : Option Handle → Prop
  | some h => ∃ a, s.agents.get? h = some a ∧ a.liveQueues ≠ 0
  | none => s.softQueues ≠ 0

namespace Places

theorem perm (places : Places stakes s) (same : stakes.Perm others) : Places others s where
  agents h a live := by
    obtain ⟨named, count, limit⟩ := places.agents h a live
    exact ⟨named, count.trans (same.countP_eq _), limit⟩
  hosted stake listed := places.hosted stake (same.mem_iff.mpr listed)
  soft := places.soft.trans (same.countP_eq _)
  softLimit := places.softLimit

theorem congr (places : Places stakes s) (agents : t.agents = s.agents)
    (soft : t.softQueues = s.softQueues) (config : t.config = s.config) : Places stakes t where
  agents h a live := places.agents h a (agents ▸ live)
  hosted := agents ▸ places.hosted
  soft := soft ▸ places.soft
  softLimit := soft ▸ config ▸ places.softLimit

theorem isSome_modify (places : Places stakes s) (f : Agent → Agent) : ∀ stake ∈ stakes,
    ∀ k, stake.agent = some k → ((s.agents.modify h f).get? k).isSome = true := by
  intro stake listed k agent
  rw [Arena.isSome_get?_modify]
  exact places.hosted stake listed k agent

/-- An agent with room takes another queue. -/
theorem addQueue (places : Places stakes s) (live : s.agents.get? h = some a)
    (room : a.hasRoom = true) (taken : stake.agent = some h) :
    Places (stake :: stakes) (s.modifyAgent h (·.addQueue)) := by
  obtain ⟨named, count, -⟩ := places.agents h a live
  have below : a.liveQueues < a.info.queueMaxCount := of_decide_eq_true room
  have more : a.addQueue.liveQueues.toNat = _ := toNat_succ_of_lt below
  refine ⟨Arena.forall_get?_modify (fun before held => ?_) fun k other apart held => ?_,
    List.forall_mem_cons.mpr ⟨fun k agent => ?_, places.isSome_modify _⟩, ?_, places.softLimit⟩
  · obtain rfl : a = before := Option.some.inj (live.symm.trans held)
    refine ⟨named, ?_, UInt32.le_iff_toNat_le.mpr ?_⟩
    · rw [List.countP_cons_of_pos (by simpa [Agent.addQueue, named] using taken), more, count]
      rfl
    · rw [UInt32.lt_iff_toNat_lt] at below
      exact more.le.trans below
  · obtain ⟨named, count, limit⟩ := places.agents k other held
    refine ⟨named, ?_, limit⟩
    rw [List.countP_cons_of_neg (by simpa [taken, named] using apart.symm), count]
  · obtain rfl : h = k := Option.some.inj (taken.symm.trans agent)
    rw [modifyAgent, Arena.get?_modify_self, live]
    rfl
  · rw [List.countP_cons_of_neg (by simp [taken])]
    exact places.soft

/-- An agent has a queue less. It had one. -/
theorem dropQueue (places : Places (stake :: stakes) s) (taken : stake.agent = some h) :
    s.CoversPlace (some h) ∧ Places stakes (s.modifyAgent h (·.dropQueue)) := by
  obtain ⟨a, live⟩ := Option.isSome_iff_exists.mp (places.hosted stake List.mem_cons_self h taken)
  obtain ⟨named, count, limit⟩ := places.agents h a live
  rw [List.countP_cons_of_pos (by simpa [named] using taken)] at count
  have left : a.dropQueue.liveQueues.toNat = _ :=
    toNat_pred_of_pos (a := a.liveQueues) (by omega)
  refine ⟨⟨a, live, fun none => by simp [none] at count⟩,
    Arena.forall_get?_modify (fun before held => ?_) fun k other apart held => ?_,
    (List.forall_mem_cons.mp (places.isSome_modify _)).2, ?_, places.softLimit⟩
  · obtain rfl : a = before := Option.some.inj (live.symm.trans held)
    refine ⟨named, ?_, UInt32.le_iff_toNat_le.mpr ?_⟩
    · rw [left, count]
      rfl
    · rw [UInt32.le_iff_toNat_le] at limit
      exact (left.le.trans (Nat.sub_le _ _)).trans limit
  · obtain ⟨named, count, limit⟩ := places.agents k other held
    rw [List.countP_cons_of_neg (by simpa [taken, named] using apart.symm)] at count
    exact ⟨named, count, limit⟩
  · have soft := places.soft
    rwa [List.countP_cons_of_neg (by simp [taken])] at soft

/-- The session takes another soft queue. -/
theorem addSoftQueue (places : Places stakes s) (room : s.softQueues < s.config.softQueueCapacity)
    (taken : stake.agent = none) :
    Places (stake :: stakes) { s with softQueues := s.softQueues + 1 } := by
  have more := toNat_succ_of_lt room
  refine ⟨fun k a live => ?_, List.forall_mem_cons.mpr ⟨by simp [taken], places.hosted⟩, ?_,
    UInt32.le_iff_toNat_le.mpr ?_⟩
  · obtain ⟨named, count, limit⟩ := places.agents k a live
    refine ⟨named, ?_, limit⟩
    rw [List.countP_cons_of_neg (by simp [taken]), count]
  · rw [List.countP_cons_of_pos (by simpa using taken), ← places.soft]
    exact more
  · rw [UInt32.lt_iff_toNat_lt] at room
    exact more.le.trans room

/-- The session has a soft queue less. It had one. -/
theorem dropSoftQueue (places : Places (stake :: stakes) s) (taken : stake.agent = none) :
    s.CoversPlace none ∧ Places stakes { s with softQueues := s.softQueues - 1 } := by
  have count := places.soft
  rw [List.countP_cons_of_pos (by simpa using taken)] at count
  have left := toNat_pred_of_pos (a := s.softQueues) (by omega)
  refine ⟨fun none => by simp [none] at count, fun k a live => ?_,
    (List.forall_mem_cons.mp places.hosted).2, ?_, UInt32.le_iff_toNat_le.mpr ?_⟩
  · obtain ⟨named, count, limit⟩ := places.agents k a live
    rw [List.countP_cons_of_neg (by simp [taken])] at count
    exact ⟨named, count, limit⟩
  · exact left.trans (by rw [count]; rfl)
  · have limit := UInt32.le_iff_toNat_le.mp places.softLimit
    exact (left.le.trans (Nat.sub_le _ _)).trans limit

end Places

end Session

end Accelerator
