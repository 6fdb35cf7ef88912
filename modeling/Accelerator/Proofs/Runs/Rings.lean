import Accelerator.Proofs.Runs.Operation

/-!
# What stays in a ring

Most of what is done to a ring leaves something of it alone: consumers leave the write index,
producers leave the read index, and whoever fills or publishes a slot leaves both. A queue that is
ended keeps its ring as it is.

What is left alone is a *part* of rings, a function of them. The lemmas below are about any part, so
that what they say of one index need not be said again of the other.

## Main definitions

* `Session.SameIn`: the part is as it was in the ring of a queue, whether the queue is live or not.

## Main results

* `Session.sameIn_modifyQueue`, `Session.keeps_in_modifyRing`: changes that leave a part alone.
* `Session.sameIn_destroyQueue`, `Session.sameIn_shutDown`: the ends of a queue.
* `Session.keeps_in_writePacket` and its like: actions that change slots only.
-/

namespace Accelerator

namespace Session

open Accelerator.Action

variable {α : Type} {part : PacketRing → α} {s t u : Session} {h k : Handle}

/-- A part of the ring of a queue is what it was, whether the queue is still live or not. -/
def SameIn (part : PacketRing → α) (h : Handle) (s t : Session) : Prop :=
  ∀ q, s.heldQueue? h = some q → ∃ q', t.heldQueue? h = some q' ∧ part q'.ring = part q.ring

instance (part : PacketRing → α) (h : Handle) : IsPreorder Session (SameIn part h) where
  refl _ q held := ⟨q, held, rfl⟩
  trans _ _ _ first second q held := by
    obtain ⟨q', held', same⟩ := first q held
    obtain ⟨q'', held'', same'⟩ := second q' held'
    exact ⟨q'', held'', same'.trans same⟩

theorem SameIn.trans (first : SameIn part h s t) (second : SameIn part h t u) :
    SameIn part h s u :=
  trans_of _ first second

theorem sameIn_of_eq (same : t.queues = s.queues) : SameIn part h s t := fun q held =>
  ⟨q, (congrArg (Directory.held? · h) same).trans held, rfl⟩

theorem Changes.sameIn {touched : Handle → Prop} (changes : s.Changes touched t)
    (wf : s.queues.WellFormed Queue.handle) (spared : ¬ touched h) : SameIn part h s t :=
  fun q held => ⟨q, (changes.heldQueue?_eq wf held spared).2, rfl⟩

/-- Actions that touch no ring at all. -/
theorem keeps_in_of_routine {β : Type} {x : Action β} (keeps : Keeps (Routine fun _ => False) x) :
    Keeps (SameIn part h) x :=
  keeps.mono fun _ _ routine => sameIn_of_eq routine.sameQueues.queues

theorem sameIn_modifyQueue (s : Session) {f : Queue → Queue}
    (kept : ∀ q, part (f q).ring = part q.ring) : SameIn part h s (s.modifyQueue k f) := by
  intro q held
  have shown : ((s.queues.modify k f).held? h).map (fun q => part q.ring) =
      (s.queues.held? h).map fun q => part q.ring :=
    Directory.map_held?_modify kept s.queues k h
  rw [show s.queues.held? h = some q from held] at shown
  exact Option.map_eq_some_iff.mp shown

theorem sameIn_modifyRing (s : Session) (k : Handle) {f : PacketRing → PacketRing}
    (kept : ∀ r, part (f r) = part r) : SameIn part h s (s.modifyQueue k (·.modifyRing f)) :=
  s.sameIn_modifyQueue fun q => kept q.ring

theorem keeps_in_modifyRing (k : Handle) {f : PacketRing → PacketRing}
    (kept : ∀ r, part (f r) = part r) : Keeps (SameIn part h) (modifyRing k f) :=
  fun s => s.sameIn_modifyRing k kept

/-! ### The ends of a queue -/

theorem sameIn_inactivate (s : Session) (k : Handle) :
    SameIn part h s (s.modifyQueue k (·.inactivate)) :=
  s.sameIn_modifyQueue fun q => by
    rw [Queue.inactivate]
    split <;> rfl

theorem keeps_in_inactivateQueue (k : Handle) : Keeps (SameIn part h) (inactivateQueue k) :=
  (keeps_queue k).bind fun _ => keeps_change fun s => s.sameIn_inactivate k

theorem sameIn_destroyQueue (wf : s.queues.WellFormed Queue.handle) (h : Handle) :
    SameIn part h s (destroyQueue h s).2 := by
  intro q held
  obtain ⟨-, q', held', rfl | ⟨-, rfl⟩⟩ := held_destroyQueue wf held
  all_goals exact ⟨_, held', rfl⟩

theorem sameIn_shutDown (wf : s.queues.WellFormed Queue.handle) (h : Handle) :
    SameIn part h s (shutDown s).2 := by
  intro q held
  obtain ⟨-, q', held', rfl | ⟨-, rfl⟩⟩ := held_shutDown wf held
  all_goals exact ⟨_, held', rfl⟩

/-! ### Slots only -/

section Slots

variable (slots : ∀ r i f, part (PacketRing.modifySlot r i f) = part r)
include slots

theorem keeps_in_writePacket (k : Handle) (index : UInt64) (packet : Slot) :
    Keeps (SameIn part h) (writePacket k index packet) := by
  rw [writePacket_at_once]
  exact (keeps_queue k).bind fun _ => keeps_in_modifyRing k fun r => slots r index _

theorem keeps_in_publish (k : Handle) (index : UInt64) (header : Header) (companion : UInt16) :
    Keeps (SameIn part h) (publish k index header companion) := by
  rw [publish_at_once]
  exact (keeps_queue k).bind fun _ => keeps_in_modifyRing k fun r => slots r index _

theorem keeps_in_deliverWhenFree (k : Handle) (parcel : Parcel) (p : Progress Reservation UInt64) :
    Keeps (SameIn part h) (deliverWhenFree k parcel p) := by
  cases p with
  | done index =>
    exact ((keeps_in_writePacket slots k _ _).bind fun _ =>
      (keeps_in_publish slots k _ _ _).bind fun _ =>
        (keeps_in_of_routine (keeps_ringDoorbell k _)).bind fun _ => keeps_pure _).bind
          fun _ => keeps_pure _
  | waiting r => exact keeps_pure _
  | overflowed => exact keeps_pure _

theorem keeps_in_resumeSubmit (w : Submission) : Keeps (SameIn part h) (resumeSubmit w) :=
  (keeps_in_of_routine (keeps_resumeReserve _)).bind fun _ => keeps_in_deliverWhenFree slots _ _ _

end Slots

end Session

end Accelerator
