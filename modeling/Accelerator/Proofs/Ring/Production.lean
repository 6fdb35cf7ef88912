import Accelerator.Proofs.Ring.Ledger
import Accelerator.Proofs.Runs.Operation

/-!
# Producers of a queue

The steps that a producer takes on the queue of a session, as actions of the application, with the
ledger kept beside the session. A producer reserves indices by adding to the write index, or by
exchanging it if it is still the one expected; it looks whether the last index reserved is still
taken; it fills the slots of its own reservation, and publishes each of them once.

## Where the protocol is written down

That a producer fills its own slots only, sees them free before, and publishes each of them once, is
not checked by the program. It is the premise of `ProducerStep`: each step has what the protocol
asks of it, and what the program answers. The invariant is shown to be kept by such steps, and by no
others.

## Main definitions

* `ProducerStep`: a step of a producer, and its entry in the ledger.

## Main results

* `ProducerStep.effect`: a step changes the ring of its queue, and the ledger goes with it.
* `Session.createSoftQueue_eq_ok`, `Session.createQueue_eq_ok`: the queue that producers start with.
-/

namespace Accelerator

open Session Accelerator.Action

variable {h : Handle} {s t : Session} {l m : Ledger} {producer : Nat}

/-- A step of a producer: what it does to the session, and its entry in the ledger. -/
inductive ProducerStep (h : Handle) (producer : Nat) :
    Session → Ledger → Session → Ledger → Prop where
  | reserve {s t : Session} {l : Ledger} {first count : UInt64} {order : MemoryOrder}
      (pos : 0 < count) (fits : l.total + count.toNat < 2 ^ 64)
      (added : addWriteIndex h count order s = (.ok first, t)) :
      ProducerStep h producer s l t (l.reserve ⟨producer, first, count⟩)
  | exchange {s t : Session} {l : Ledger} {first count : UInt64} {order : MemoryOrder}
      (pos : 0 < count) (fits : l.total + count.toNat < 2 ^ 64)
      (won : compareAndSwapWriteIndex h first (first + count) order s = (.ok first, t)) :
      ProducerStep h producer s l t (l.reserve ⟨producer, first, count⟩)
  /-- The last index of a reservation is not taken by an earlier one any more. -/
  | observe {s : Session} {l : Ledger} {a : Lease} {q : Queue} (reserved : a ∈ l.leases)
      (own : a.producer = producer) (held : s.heldQueue? h = some q)
      (free : q.ring.isFullAt a.last = false) : ProducerStep h producer s l s (l.clear a)
  | fill {s t : Session} {l : Ledger} {a : Lease} {index : UInt64} {packet : Slot}
      (cleared : a ∈ l.cleared) (own : a.producer = producer) (holds : a.Holds index)
      (notYet : ¬ (l.stage index.toNat).IsPublished)
      (written : writePacket h index packet s = (.ok (), t)) :
      ProducerStep h producer s l t (l.setStage index.toNat (.filled packet))
  | publish {s t : Session} {l : Ledger} {a : Lease} {index : UInt64} {packet : Slot}
      {header : Header} {companion : UInt16} (cleared : a ∈ l.cleared)
      (own : a.producer = producer) (holds : a.Holds index)
      (filled : l.stage index.toNat = .filled packet) (proper : header.isUnpublished = false)
      (published : Session.publish h index header companion s = (.ok (), t)) :
      ProducerStep h producer s l t
        (l.setStage index.toNat (.published ⟨packet, header, companion⟩))

namespace Session

/-! ### The actions of producers -/

theorem modifyRing_eq_ok {f : PacketRing → PacketRing} {u : Unit} :
    modifyRing h f s = (.ok u, t) ↔ s.modifyQueue h (·.modifyRing f) = t := by
  rw [modifyRing, change_eq_ok]

theorem addWriteIndex_eq_ok {count first : UInt64} {order : MemoryOrder}
    (added : addWriteIndex h count order s = (.ok first, t)) :
    ∃ q, s.queues.get? h = some q ∧ q.ring.writeIndex = first ∧
      t = s.modifyQueue h (·.modifyRing fun r => (r.addWriteIndex count).2) := by
  simp only [addWriteIndex_at_once, bind_eq_ok, activeQueue_eq_ok, modifyRing_eq_ok,
    pure_eq_ok] at added
  obtain ⟨q, _, ⟨-, live, -, rfl⟩, _, _, rfl, rfl, rfl⟩ := added
  exact ⟨q, live, rfl, rfl⟩

theorem compareAndSwapWriteIndex_eq_ok {expected value shown : UInt64} {order : MemoryOrder}
    (swapped : compareAndSwapWriteIndex h expected value order s = (.ok shown, t)) :
    ∃ q, s.queues.get? h = some q ∧ q.ring.writeIndex = shown ∧
      t = s.modifyQueue h
        (·.modifyRing fun r => (r.compareAndSwapWriteIndex expected value).2) := by
  simp only [compareAndSwapWriteIndex_at_once, bind_eq_ok, activeQueue_eq_ok, modifyRing_eq_ok,
    pure_eq_ok] at swapped
  obtain ⟨q, _, ⟨-, live, -, rfl⟩, _, _, rfl, rfl, rfl⟩ := swapped
  exact ⟨q, live, rfl, rfl⟩

theorem writePacket_eq_ok {index : UInt64} {packet : Slot} {u : Unit}
    (written : writePacket h index packet s = (.ok u, t)) :
    ∃ q, s.queues.get? h = some q ∧ t = s.modifyQueue h (·.modifyRing (·.write index packet)) := by
  simp only [writePacket_at_once, bind_eq_ok, queue_eq_ok, modifyRing_eq_ok] at written
  obtain ⟨q, _, ⟨-, live, rfl⟩, rfl⟩ := written
  exact ⟨q, live, rfl⟩

theorem publish_eq_ok {index : UInt64} {header : Header} {companion : UInt16} {u : Unit}
    (published : publish h index header companion s = (.ok u, t)) :
    ∃ q, s.queues.get? h = some q ∧
      t = s.modifyQueue h (·.modifyRing (·.publish index header companion)) := by
  simp only [publish_at_once, bind_eq_ok, queue_eq_ok, modifyRing_eq_ok] at published
  obtain ⟨q, _, ⟨-, live, rfl⟩, rfl⟩ := published
  exact ⟨q, live, rfl⟩

end Session

namespace ProducerStep

/-- The step changes nothing but the ring of its queue, and the ledger agrees with the ring after
it if it did before. -/
structure Effect (h : Handle) (s : Session) (l : Ledger) (t : Session) (m : Ledger) (q : Queue)
    (f : PacketRing → PacketRing) : Prop where
  held : s.heldQueue? h = some q
  after : t = s ∧ f q.ring = q.ring ∨
    s.queues.get? h = some q ∧ t = s.modifyQueue h (·.modifyRing f)
  tracks : ∀ consumed, l.Tracks q.ring consumed → m.Tracks (f q.ring) consumed

theorem effect (step : ProducerStep h producer s l t m) : ∃ q f, Effect h s l t m q f := by
  cases step with
  | reserve pos fits added =>
    obtain ⟨q, live, rfl, rfl⟩ := addWriteIndex_eq_ok added
    exact ⟨q, _, Directory.held?_of_get? live, .inr ⟨live, rfl⟩,
      fun _ tracks => tracks.reserve producer pos fits⟩
  | @exchange _ _ _ count _ pos fits won =>
    obtain ⟨q, live, rfl, rfl⟩ := compareAndSwapWriteIndex_eq_ok won
    refine ⟨q, _, Directory.held?_of_get? live, .inr ⟨live, rfl⟩, fun _ tracks => ?_⟩
    have same : (q.ring.compareAndSwapWriteIndex q.ring.writeIndex
        (q.ring.writeIndex + count)).2 = (q.ring.addWriteIndex count).2 := if_pos rfl
    exact same ▸ tracks.reserve producer pos fits
  | @observe _ a q reserved own held free =>
    exact ⟨q, id, held, .inl ⟨rfl, rfl⟩, fun _ tracks => tracks.clear reserved free⟩
  | @fill _ _ a index packet cleared own holds notYet written =>
    obtain ⟨q, live, rfl⟩ := writePacket_eq_ok written
    exact ⟨q, _, Directory.held?_of_get? live, .inr ⟨live, rfl⟩,
      fun _ tracks => tracks.fill cleared holds notYet packet⟩
  | @publish _ _ a index packet header companion cleared own holds filled proper published =>
    obtain ⟨q, live, rfl⟩ := publish_eq_ok published
    exact ⟨q, _, Directory.held?_of_get? live, .inr ⟨live, rfl⟩,
      fun _ tracks => tracks.publish cleared holds filled proper companion⟩

/-- What was published stays published. -/
theorem stage_published (step : ProducerStep h producer s l t m) {i : Nat} {parcel : Parcel}
    (published : l.stage i = .published parcel) : m.stage i = .published parcel := by
  have other : ∀ {index : UInt64}, ¬ (l.stage index.toNat).IsPublished → i ≠ index.toNat := by
    rintro index notYet rfl
    exact notYet (by rw [published]; trivial)
  cases step with
  | reserve | exchange | observe => exact published
  | fill cleared own holds notYet =>
    rw [Ledger.stage_setStage_of_ne (other notYet)]
    exact published
  | publish cleared own holds filled =>
    rw [Ledger.stage_setStage_of_ne (other (by rw [filled]; exact id))]
    exact published

namespace Effect

variable {q : Queue} {f : PacketRing → PacketRing} (effect : Effect h s l t m q f)
include effect

theorem changes : s.Changes (· = h) t := by
  rcases effect.after with ⟨rfl, -⟩ | ⟨-, rfl⟩
  · exact refl_of _ t
  · exact s.changes_modifyRing h f

theorem notices : t.notices = s.notices := by
  rcases effect.after with ⟨rfl, -⟩ | ⟨-, rfl⟩ <;> rfl

theorem isOpen : t.isOpen = s.isOpen := by
  rcases effect.after with ⟨rfl, -⟩ | ⟨-, rfl⟩ <;> rfl

/-- The queue is live after the step if it was before. -/
theorem get?_eq : t.queues.get? h = (s.queues.get? h).map (·.modifyRing f) := by
  rcases effect.after with ⟨rfl, same⟩ | ⟨live, rfl⟩
  · cases live : t.queues.get? h with
    | none => rfl
    | some other =>
      obtain rfl : other = q := Directory.eq_of_held? effect.held live
      rw [Option.map_some, Queue.modifyRing, same]
  · rw [modifyQueue, Directory.get?_modify_self]

theorem heldQueue?_eq : t.heldQueue? h = some (q.modifyRing f) := by
  rcases effect.after with ⟨rfl, same⟩ | ⟨live, rfl⟩
  · rw [effect.held, Queue.modifyRing, same]
  · refine Directory.held?_of_get? ?_
    rw [modifyQueue, Directory.get?_modify_self, live, Option.map_some]

end Effect

end ProducerStep

/-! ### Queues to start with -/

namespace Session

variable {q : Queue}

/-- A new queue is found under its handle. -/
theorem insertQueue_eq_ok {make : Handle → UInt64 → Queue}
    (wf : s.queues.WellFormed Queue.handle) (room : s.queues.live.slots.size < 2 ^ 32)
    (made : insertQueue make s = (.ok q, t)) :
    ∃ h id, q = make h id ∧ t.queues.get? h = some q := by
  simp only [insertQueue, bind_eq_ok, session_eq_ok, change_eq_ok, pure_eq_ok] at made
  obtain ⟨_, _, ⟨rfl, rfl⟩, _, _, rfl, rfl, rfl⟩ := made
  exact ⟨_, _, rfl, Arena.get?_insert_self wf.live room _⟩

/-- A new soft queue: its ring is empty, and the application consumes it. -/
theorem createSoftQueue_eq_ok {regionHandle doorbell : Handle} {size : UInt32} {type : QueueType}
    {features : Features} (wf : s.queues.WellFormed Queue.handle) (room : s.HasRoom)
    (made : createSoftQueue regionHandle size type features doorbell s = (.ok q, t)) :
    size.toNat.isPowerOfTwo ∧ q.ring = .ofSize size ∧ q.isActive = true ∧ t.isOpen = true ∧
      t.queues.get? q.handle = some q := by
  have changes := (keeps_createSoftQueue regionHandle size type features doorbell).of_eq made
    room.2.1
  simp only [createSoftQueue, bind_eq_ok, ensureOpen_eq_ok, require_eq_ok, session_eq_ok,
    change_eq_ok] at made
  obtain ⟨_, _, ⟨isOpen, rfl⟩, _, _, ⟨sized, rfl⟩, _, _, ⟨-, rfl⟩, _, _, ⟨-, rfl⟩, r, m, found,
    bell, n, rang, _, _, ⟨rfl, rfl⟩, _, _, ⟨rfl, rfl⟩, _, _, ⟨-, rfl⟩, _, _, rfl, _, _, ⟨rfl, rfl⟩,
    made⟩ := made
  have searched : s.SameQueues m := (keeps_region _).of_eq found
  have same : m.SameQueues n := (keeps_signal _).of_eq rang
  generalize taken : Session.allocateFrom _ _ _ _ _ = block at made
  rcases block with cause | ⟨start, rounded, u⟩
  · simp [bind_eq_ok] at made
  · have counted : n.SameQueues { n with softQueues := n.softQueues + 1 } :=
      ⟨rfl, rfl, rfl, fun _ => rfl⟩
    have prepared := ((searched.trans same).trans counted).trans (sameQueues_allocateFrom taken)
    obtain ⟨_, _, changed, made⟩ := bind_eq_ok.mp made
    obtain rfl := change_eq_ok.mp changed
    obtain ⟨h, id, rfl, live⟩ := insertQueue_eq_ok (prepared.queues ▸ wf)
      (prepared.queues ▸ room.2.1) made
    exact ⟨of_decide_eq_true sized, rfl, rfl,
      (changes.isOpen_eq (h := .null) not_false).trans isOpen, live⟩

/-- A new hardware queue: its ring is empty, and it has a command processor if its agent runs
kernels. -/
theorem createQueue_eq_ok {agentHandle : Handle} {size : UInt32} {type : QueueType}
    {options : QueueOptions} (wf : s.WellFormed) (room : s.HasRoom)
    (made : createQueue agentHandle size type options s = (.ok q, t)) :
    size.toNat.isPowerOfTwo ∧ q.ring = .ofSize size ∧ q.isActive = true ∧ t.isOpen = true ∧
      t.queues.get? q.handle = some q ∧ q.notifies = options.notifies ∧
      ∃ a, s.agents.get? agentHandle = some a ∧ q.agent = some agentHandle ∧
        q.processor = if a.info.features.contains .kernelDispatch then some .start else none := by
  obtain ⟨a, base, host, placement, rfl, rfl⟩ := exists_placement_of_createQueue made
  exact ⟨placement.sized, rfl, rfl, placement.isOpen,
    (Directory.get?_insert wf.queues room.2.1 _ _).trans (if_pos rfl), rfl, a, placement.live,
    congrArg some (wf.agents agentHandle a placement.live), rfl⟩

end Session

end Accelerator
