import Accelerator.Proofs.Ring.Processing
import Accelerator.Proofs.Ring.Submission

/-!
# The last index

Indices are words, and the application may set both indices of a queue to any word. Most of what is
done with them goes round at `2 ^ 64`: the write index is moved past it, a slot is found by the
lowest bits of its index, and whether a slot is taken depends on how far it lies ahead of the read
index. The sums that look for the index after some others do not go round. There are three: behind
the indices that a producer reserved, and behind the packet that a consumer or a command processor
has finished. Each of them is formed after something has been done, and each of them overflows just
when the indices in question reach up to the last one.

## Why both indices can be anywhere

An index that is only counted up would not reach its last value in any time that matters. But the
application may set both indices of its queues, so the last index is reached in a few calls, and the
conditions below are met by sessions that runs lead to (`Session.exists_queue_at`).

## Main definitions

* `Action.Rewinds`: an action is answered, and gives a queue another ring.
* `Session.Settable`: both indices of a queue can be set to any value.

## Main results

* `PacketRing.isFullAt_add`, `PacketRing.place_add`: what goes round at `2 ^ 64`.
* `Session.settable`: the application can bring both indices anywhere.
* `Session.ProcessRun.overflowed_iff`, `Session.get?_advance_eq`: how a consumer and a command
  processor come to the end of the indices.
* `Session.reserve_overflowed_iff`, `Session.tryNext_overflowed_iff`,
  `Session.stepProcessor?_finishing_at`: when each of the three sums overflows.
* `Session.Hosted.breaks_off_iff_last_index`: all of it, for a live queue.
-/

namespace Accelerator

/-! ### Indices that go round -/

namespace PacketRing

variable {r : PacketRing}

/-- Whether a slot is taken depends on how far its index lies ahead of the read index. -/
theorem isFullAt_add (sized : r.IsSized) {n : Nat} (small : n < 2 ^ 64) :
    r.isFullAt (r.readIndex + .ofNat n) = decide (r.slots.size ≤ n) := by
  have ahead : r.readIndex + .ofNat n - r.readIndex = .ofNat n := by
    rw [UInt64.add_comm, UInt64.add_sub_cancel]
  rw [isFullAt, ahead, decide_eq_decide, UInt64.le_iff_toNat_le, toNat_size sized,
    UInt64.toNat_ofNat_of_lt' small]

/-- The slots of consecutive indices are consecutive, and the first comes after the last. -/
theorem place_add (sized : r.IsSized) (i : UInt64) (n : Nat) :
    r.place (i + .ofNat n) = (r.place i + n) % r.slots.size := by
  have sum : i + .ofNat n = .ofNat (i.toNat + n) := by
    rw [UInt64.ofNat_add, UInt64.ofNat_toNat]
  rw [sum, place_ofNat sized, place_eq_mod sized, Nat.mod_add_mod]

end PacketRing

/-! ### Indices that can be set -/

/-- An action is answered, and the queue of a handle has a certain ring afterwards. -/
def Action.Rewinds {α : Type} (x : Action α) (s : Session) (h : Handle) (r : PacketRing) : Prop :=
  ∃ a t q, x s = (.ok a, t) ∧ t.queues.get? h = some q ∧ q.ring = r

namespace Session

open Accelerator.Action

variable {s t : Session} {h : Handle} {q : Queue}

/-- Both indices of a queue can be set to any value; the write index only while the queue is active,
but then in three ways. -/
structure Settable (s : Session) (h : Handle) (q : Queue) : Prop where
  read : ∀ value, (storeReadIndex h value .relaxed).Rewinds s h (q.ring.setReadIndex value)
  write : q.isActive = true → ∀ value,
    (storeWriteIndex h value .relaxed).Rewinds s h (q.ring.setWriteIndex value)
  swap : q.isActive = true → ∀ value,
    (compareAndSwapWriteIndex h q.ring.writeIndex value .relaxed).Rewinds s h
      (q.ring.setWriteIndex value)
  add : q.isActive = true → ∀ value,
    (addWriteIndex h (value - q.ring.writeIndex) .relaxed).Rewinds s h (q.ring.setWriteIndex value)

theorem rewinds_of_modifyRing {α : Type} {x : Action α} {a : α} {f : PacketRing → PacketRing}
    {r : PacketRing} (live : s.queues.get? h = some q)
    (ran : x s = (.ok a, s.modifyQueue h (·.modifyRing f))) (same : f q.ring = r) :
    x.Rewinds s h r :=
  ⟨a, _, q.modifyRing f, ran, (Directory.get?_modify_self ..).trans (congrArg _ live), same⟩

theorem settable (isOpen : s.isOpen = true) (live : s.queues.get? h = some q) :
    s.Settable h q := by
  have found := queue_of_live isOpen live
  have ready (active : q.isActive = true) : activeQueue h s = (.ok q, s) :=
    activeQueue_eq_ok.mpr ⟨isOpen, live, active, rfl⟩
  constructor
  case read =>
    intro value
    have ran : storeReadIndex h value .relaxed s =
        (.ok (), s.modifyQueue h (·.modifyRing (·.setReadIndex value))) := by
      rw [storeReadIndex_at_once, bind_of_ok found]
      rfl
    exact rewinds_of_modifyRing live ran rfl
  case write =>
    intro active value
    have ran : storeWriteIndex h value .relaxed s =
        (.ok (), s.modifyQueue h (·.modifyRing (·.setWriteIndex value))) := by
      rw [storeWriteIndex_at_once, bind_of_ok (ready active)]
      rfl
    exact rewinds_of_modifyRing live ran rfl
  case swap =>
    intro active value
    have ran : compareAndSwapWriteIndex h q.ring.writeIndex value .relaxed s =
        (.ok q.ring.writeIndex, s.modifyQueue h (·.modifyRing fun r =>
          (r.compareAndSwapWriteIndex q.ring.writeIndex value).2)) := by
      rw [compareAndSwapWriteIndex_at_once, bind_of_ok (ready active)]
      rfl
    exact rewinds_of_modifyRing live ran (if_pos rfl)
  case add =>
    intro active value
    have ran : addWriteIndex h (value - q.ring.writeIndex) .relaxed s =
        (.ok q.ring.writeIndex, s.modifyQueue h (·.modifyRing fun r =>
          (r.addWriteIndex (value - q.ring.writeIndex)).2)) := by
      rw [addWriteIndex_at_once, bind_of_ok (ready active)]
      rfl
    have there : q.ring.writeIndex + (value - q.ring.writeIndex) = value := by
      rw [UInt64.add_comm, UInt64.sub_add_cancel]
    exact rewinds_of_modifyRing live ran (by
      rw [PacketRing.addWriteIndex, there, PacketRing.setWriteIndex])

/-! ### The index after a packet -/

/-- The consumer comes to the end of the indices when the packet it handles is that of the last. -/
theorem Consumes.overflowed_iff {view : PacketView} {outcome : Consumed}
    (consumes : Consumes q s view outcome t) :
    outcome = .overflowed ↔ view.index.toNat + 1 = 2 ^ 64 := by
  rw [consumes.overflowed, consumes.shown]
  rfl

/-- A loop comes to the end of the indices with one of its packets. -/
theorem ProcessReaches.overflowed_iff {others : Session → Session → Prop}
    {ends : List PacketView → Bool} {seen : List PacketView}
    {handled : List (PacketView × Consumed)} {p : Processing}
    (reached : ProcessReaches h others ends seen handled p t) :
    p = .ended .overflowed ↔ ∃ x ∈ handled, x.2 = .overflowed := by
  induction reached with
  | handled _ _ ih => simpa using ih
  | overflowed => simp
  | exited | failed | next | looking | idle | inactive | mute | missing => simp

/-- A loop, whoever comes between its steps, comes to the end of the indices just when it handles
the packet of the last. -/
theorem ProcessRun.overflowed_iff {others : Session → Session → Prop}
    {ends : List PacketView → Bool} {seen : List PacketView} {p : Processing}
    (run : ProcessRun h others ends s p seen t) (leave : LeaveReadIndex h others)
    (wf : s.queues.WellFormed Queue.handle) :
    p = .ended .overflowed ↔ ∃ view ∈ seen, view.index.toNat + 1 = 2 ^ 64 := by
  obtain ⟨handled, consumed, rfl, reached⟩ := run.consumes leave wf
  have each : ∀ x ∈ handled, x.2 = .overflowed ↔ x.1.index.toNat + 1 = 2 ^ 64 := by
    intro x listed
    obtain ⟨q, u, v, -, consumes⟩ := consumed.each leave wf x listed
    exact consumes.overflowed_iff
  rw [reached.overflowed_iff]
  constructor
  · rintro ⟨x, listed, last⟩
    have shown : x.1 ∈ given handled [] := by simpa [given] using ⟨x.2, listed⟩
    exact ⟨x.1, shown, (each x listed).mp last⟩
  · rintro ⟨view, shown, last⟩
    obtain ⟨answer, listed⟩ : ∃ answer, (view, answer) ∈ handled := by simpa [given] using shown
    exact ⟨_, listed, (each _ listed).mpr last⟩

/-- A command processor that is done with a packet moves on as a consumer does. -/
theorem get?_advance_eq (s : Session) (q : Queue) (p : Processor) :
    (s.advance q p).queues.get? q.handle = (s.queues.get? q.handle).map fun q =>
      (q.modifyRing (·.settle p.index)).setProcessor
        (if p.index.toNat + 1 < 2 ^ 64 then ⟨p.index + 1, .ready⟩
          else { p with state := .crashed }) := by
  by_cases fits : p.index.toNat + 1 < 2 ^ 64
  · simp only [get?_advance s q fits, Queue.modifyRing, PacketRing.settle_of_fits fits,
      if_pos fits]
  · simp only [get?_advance_last s q fits, Queue.modifyRing,
      PacketRing.settle_of_last (Nat.not_lt.mp fits), if_neg fits]

/-! ### The three sums -/

/-- A producer gets the indices from the write index on, or breaks off behind the last of them. -/
theorem reserve_overflowed_iff (isOpen : s.isOpen = true) (live : s.queues.get? h = some q)
    (active : q.isActive = true) {count : UInt64} (positive : 0 < count)
    (enough : count ≤ q.size.toUInt64) : ∃ answer,
      reserve h count s =
        (.ok answer, s.modifyQueue h (·.modifyRing fun r => (r.addWriteIndex count).2)) ∧
      (answer = .overflowed ↔ 2 ^ 64 ≤ q.ring.writeIndex.toNat + count.toNat) ∧
      (answer ≠ .overflowed → ∃ last : UInt64,
        last.toNat + 1 = q.ring.writeIndex.toNat + count.toNat ∧
        answer = if q.ring.isFullAt last then .waiting ⟨h, q.ring.writeIndex, last⟩
          else .done q.ring.writeIndex) := by
  have some : count ≠ 0 := (UInt64.ne_of_lt positive).symm
  refine ⟨_, reserve_of_active isOpen live active some enough, ?_⟩
  by_cases fits : q.ring.writeIndex.toNat + count.toNat < 2 ^ 64
  · rw [if_pos fits]
    refine ⟨iff_of_false (by split <;> nofun) (Nat.not_le.mpr fits), fun _ => ?_⟩
    exact ⟨_, Lease.toNat_last (a := ⟨0, q.ring.writeIndex, count⟩) positive fits, rfl⟩
  · rw [if_neg fits]
    exact ⟨iff_of_true rfl (Nat.not_lt.mp fits), fun granted => absurd rfl granted⟩

/-- A consumer handles the packet at the read index, and breaks off behind the last index. -/
theorem tryNext_overflowed_iff (isOpen : s.isOpen = true) (live : s.queues.get? h = some q)
    (named : q.handle = h) (published : (q.ring.header q.ring.readIndex).isUnpublished = false) :
    ∃ view outcome t, tryNext h s = (.ok (some (view, outcome)), t) ∧
      Consumes q s view outcome t ∧
      (outcome = .overflowed ↔ q.ring.readIndex.toNat + 1 = 2 ^ 64) := by
  obtain ⟨view, outcome, t, answer, -, consumes⟩ := tryNext_published isOpen live named published
  exact ⟨view, outcome, t, answer, consumes, consumes.overflowed⟩

/-- A command processor that is done with a packet moves on, or crashes behind the last index. -/
theorem stepProcessor?_finishing_at {p : Processor} {completion : Option Handle}
    (live : s.queues.get? q.handle = some q) (running : q.processor = some p)
    (state : p.state = .finishing completion)
    (usable : ∀ k, completion = some k → s.signals.isLive k = true) : ∃ t q',
      s.stepProcessor? q = some t ∧ t.queues.get? q.handle = some q' ∧
      q'.ring = q.ring.settle p.index ∧
      q'.processor = some (if p.index.toNat + 1 < 2 ^ 64 then ⟨p.index + 1, .ready⟩
        else { p with state := .crashed }) := by
  have here : (s.countDown completion).queues.get? q.handle = some q :=
    (sameQueues_countDown s completion).queues ▸ live
  have after := (s.countDown completion).get?_advance_eq q p
  rw [here, Option.map_some] at after
  exact ⟨_, _, stepProcessor?_finishing running state usable, after, rfl, rfl⟩

/-- The application can set the indices of a live queue to anything.

It may then reserve some slots of it. The write index moves on in any case, and what is reserved are
the indices from where it was up to a last one, unless the index after that does not fit 64 bits;
just then the call breaks off. A consumer breaks off, on its own or in a loop, just when the packet
that it handles is that of the last index, and a command processor just when it is done with that
packet. What tells whether a slot is free, and where it is, goes round instead. -/
theorem Hosted.breaks_off_iff_last_index (hosted : s.Hosted) (live : s.queues.get? h = some q) :
    s.Settable h q ∧
    (q.isActive = true → ∀ count, 0 < count → count ≤ q.size.toUInt64 → ∃ answer,
      reserve h count s =
        (.ok answer, s.modifyQueue h (·.modifyRing fun r => (r.addWriteIndex count).2)) ∧
      (answer = .overflowed ↔ 2 ^ 64 ≤ q.ring.writeIndex.toNat + count.toNat) ∧
      (answer ≠ .overflowed → ∃ last : UInt64,
        last.toNat + 1 = q.ring.writeIndex.toNat + count.toNat ∧
        answer = if q.ring.isFullAt last then .waiting ⟨h, q.ring.writeIndex, last⟩
          else .done q.ring.writeIndex)) ∧
    ((q.ring.header q.ring.readIndex).isUnpublished = false → ∃ view outcome t,
      tryNext h s = (.ok (some (view, outcome)), t) ∧ Consumes q s view outcome t ∧
      (outcome = .overflowed ↔ q.ring.readIndex.toNat + 1 = 2 ^ 64)) ∧
    (∀ others, LeaveReadIndex h others → ∀ ends p seen t,
      ProcessRun h others ends s p seen t →
        (p = .ended .overflowed ↔ ∃ view ∈ seen, view.index.toNat + 1 = 2 ^ 64)) ∧
    (∀ p completion, q.processor = some p → p.state = .finishing completion →
      (∀ k, completion = some k → s.signals.isLive k = true) → ∃ t q',
        s.stepProcessor? q = some t ∧ t.queues.get? h = some q' ∧
        q'.ring = q.ring.settle p.index ∧
        q'.processor = some (if p.index.toNat + 1 < 2 ^ 64 then ⟨p.index + 1, .ready⟩
          else { p with state := .crashed })) ∧
    (∀ n < 2 ^ 64, q.ring.isFullAt (q.ring.readIndex + .ofNat n) =
      decide (q.ring.slots.size ≤ n)) ∧
    ∀ i n, q.ring.place (i + .ofNat n) = (q.ring.place i + n) % q.ring.slots.size := by
  have isOpen := hosted.isOpen_of_live live
  have wf := hosted.wellFormed.queues
  have sized := hosted.isSized live
  obtain rfl := wf.named h q live
  exact ⟨settable isOpen live,
    fun active _ positive enough => reserve_overflowed_iff isOpen live active positive enough,
    tryNext_overflowed_iff isOpen live rfl,
    fun _ leave _ _ _ _ run => run.overflowed_iff leave wf,
    fun _ _ running state usable => stepProcessor?_finishing_at live running state usable,
    fun _ small => PacketRing.isFullAt_add sized small, PacketRing.place_add sized⟩

/-- A queue of two slots, both of whose indices were set to the same value. -/
theorem exists_queue_at (value : UInt64) : ∃ (s : Session) (q : Queue), s.Hosted ∧
    s.queues.get? (.ofParts 0 1) = some q ∧ q.isActive = true ∧ q.size = 2 ∧
    q.ring.readIndex = value ∧ q.ring.writeIndex = value := by
  have opened : Ascending (.ofConfig .default) := .opened (c := .default) rfl
  have rings := opened.step (.lasting (o := .createSignal 0 0 [])
    ⟨by decide, by decide, by decide⟩ ⟨nofun, nofun⟩)
  have queued := rings.step (.lasting
    (o := .createSoftQueue (.ofParts 0 1) 2 .multi .agentDispatch (.ofParts 0 1))
    ⟨by decide, by decide, by decide⟩ ⟨nofun, nofun⟩)
  have behind := queued.step (.lasting (o := .storeReadIndex (.ofParts 0 1) value .relaxed)
    ⟨by decide, by decide, by decide⟩ ⟨nofun, nofun⟩)
  -- here the session depends on the value, although what has to be decided does not
  have ahead := behind.step (.lasting (o := .storeWriteIndex (.ofParts 0 1) value .relaxed)
    ⟨of_decide_eq_true rfl, of_decide_eq_true rfl, of_decide_eq_true rfl⟩ ⟨nofun, nofun⟩)
  exact ⟨_, _, ahead.hosted, rfl, rfl, rfl, rfl, rfl⟩

/-- One index can be reserved before the last, but not that one and the last. -/
theorem breaks_off_iff_before_last : ∃ s : Session, s.Hosted ∧
    (reserve (.ofParts 0 1) 1 s).1 = .ok (.done 0xfffffffffffffffe) ∧
    (reserve (.ofParts 0 1) 2 s).1 = .ok .overflowed := by
  obtain ⟨s, q, hosted, live, active, size, read, write⟩ := exists_queue_at 0xfffffffffffffffe
  obtain ⟨-, reserves, -, -, -, full, -⟩ := hosted.breaks_off_iff_last_index live
  refine ⟨s, hosted, ?_, ?_⟩
  · obtain ⟨answer, ran, beyond, granted⟩ := reserves active 1 (by decide) (by rw [size]; decide)
    obtain ⟨last, sum, rfl⟩ :=
      granted fun same => absurd (beyond.mp same) (by rw [write]; decide)
    obtain rfl : last = q.ring.writeIndex := UInt64.toNat_inj.mp (Nat.add_right_cancel sum)
    have free : q.ring.isFullAt q.ring.writeIndex = false := by
      have here : q.ring.readIndex + .ofNat 0 = q.ring.writeIndex := by
        rw [read, write]
        rfl
      rw [← here, full 0 (by decide)]
      exact decide_eq_false (Nat.not_le.mpr (hosted.isSized live).pos)
    rw [ran, free, write]
    rfl
  · obtain ⟨answer, ran, beyond, -⟩ := reserves active 2 (by decide) (by rw [size]; decide)
    rw [ran, beyond.mpr (by rw [write]; decide)]

/-- The last index and the one behind it, which is 0 again, cannot be reserved. -/
theorem overflows_at_last_index : ∃ (s : Session) (q : Queue), s.Hosted ∧
    s.queues.get? (.ofParts 0 1) = some q ∧ q.isActive = true ∧ q.size = 2 ∧
    q.ring.writeIndex = 0xffffffffffffffff ∧
    (reserve (.ofParts 0 1) 2 s).1 = .ok .overflowed := by
  obtain ⟨s, q, hosted, live, active, size, read, write⟩ := exists_queue_at 0xffffffffffffffff
  refine ⟨s, q, hosted, live, active, size, write, ?_⟩
  rw [reserve_of_active (hosted.isOpen_of_live live) live active (by decide)
    (by rw [size]; decide), write, if_neg (by decide)]

end Session

end Accelerator
