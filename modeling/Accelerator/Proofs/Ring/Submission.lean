import Accelerator.Proofs.Processor.Attendance
import Accelerator.Proofs.Ring.Production

/-!
# Submitting a packet by one call

One call takes a packet through all steps of the protocol: it reserves a slot, fills it, publishes
the packet, and rings the doorbell. The checks of the later steps are almost those of the first
one, so a call that is refused has usually done nothing. Two things can go wrong after something has
been done. The doorbell is looked up last, when the packet is published already; and a call that
has to wait for its slot holds a reserved index, which is not given back if the queue ends before
the slot is free.

## Inductive outcomes

A call goes through four actions, each of which may be refused. What it comes to is told as an
inductive with a case for each outcome, first for each half of the call and then for all of it, and
every case has the session that is left. The statements about answers are read off these cases.

## Main definitions

* `OneShot`: the packets that are submitted by one call, with `OneShot.submit`.
* `PacketRing.Stores`: a ring that has a packet in one slot, and its other slots as before.
* `Session.Submitted`, `Session.Unheard`: a packet is in a queue, and its doorbell tells of it or is
  gone.
* `Session.Submits`, `Session.Resumes`: what a call comes to, at first and after waiting.

## Main results

* `Session.Hosted.isSized`: the rings of a run have a power of two of slots.
* `Session.delivers`, `Session.reserves`: every outcome of the two halves of a call.
* `Session.Reachable.submits_or_refuses`: a call does all that it is meant to do, or nothing, unless
  the doorbell is gone.
* `Session.not_submits_whole`: calls that are refused and have done something.
-/

namespace Accelerator

/-! ### Slots -/

namespace PacketRing

variable {r : PacketRing} {i : UInt64} {p : Parcel}

/-- The ring with a packet filled in and published at an index. -/
def deliver (r : PacketRing) (i : UInt64) (p : Parcel) : PacketRing :=
  (r.write i p.packet).publish i p.header p.companion

/-- A ring comes from another by putting a packet into the slot of an index, its bytes with its
header word; the other slots and the read index are as before. -/
structure Stores (r r' : PacketRing) (i : UInt64) (p : Parcel) : Prop where
  slot : r'.read i = p.slot
  others : ∀ j, r.place j ≠ r.place i → r'.read j = r.read j
  readIndex : r'.readIndex = r.readIndex

theorem stores_deliver (sized : r.IsSized) (i : UInt64) (p : Parcel) :
    r.Stores (r.deliver i p) i p := by
  have written : (r.write i p.packet).IsSized := sized.congr (r.size_modifySlot i _)
  have same : ∀ j, (r.write i p.packet).place j = r.place j := fun j => place_modifySlot ..
  refine ⟨?_, fun j other => ?_, rfl⟩
  · rw [deliver, publish, read_modifySlot_self written, write, read_modifySlot_self sized]
    refine Slot.eq_of_word_payload ?_ ?_ <;> simp [Parcel.slot]
  · have far : r.place i ≠ r.place j := fun same => other same.symm
    rw [deliver, publish, read_modifySlot_of_ne (by rwa [same, same]), write,
      read_modifySlot_of_ne far]

end PacketRing

namespace Session

open Accelerator.Action

variable {s t : Session} {h : Handle} {q : Queue} {i : UInt64} {p : Parcel}

/-! ### Rings of a run -/

theorem Leaves.size {p : Processor} {q' : Queue} (left : s.Leaves q p q') :
    q'.ring.slots.size = q.ring.slots.size := by
  cases left with
  | look | resume | stop | hold | finish | crash => rfl
  | fail => exact q.continues_inactivate.size
  | next | exhaust => exact PacketRing.size_modifySlot ..

/-- Along a run the rings keep their power of two of slots. -/
theorem Reachable.isSized (reachable : s.Reachable) (live : s.queues.get? h = some q) :
    q.ring.IsSized := by
  induction reachable generalizing h q with
  | @opened c s opened =>
    obtain rfl := openConfig_eq_ok opened
    cases live.symm.trans (Directory.get?_empty h)
  | rehost before host ih => exact ih live
  | step before step ih =>
    have wf := before.wellFormed
    cases step with
    | application room ready =>
      rcases origin_perform room wf before.signals _ live with ⟨q₀, there, later⟩ | fresh
      · exact (ih there).congr later.size
      · exact fresh.sized
    | processor there stepped =>
      rcases origin_step wf there stepped live with ⟨rfl, p, -, left⟩ | ⟨-, there⟩
      · exact (ih ‹_›).congr left.size
      · exact ih there

theorem Hosted.isSized (hosted : s.Hosted) (live : s.queues.get? h = some q) : q.ring.IsSized :=
  hosted.reachable.isSized live

/-! ### Filling, publishing and ringing -/

/-- A packet was put into the slot of an index of a queue, whose write index is a certain one now;
nothing else was done. -/
structure Fills (s : Session) (h : Handle) (q : Queue) (i next : UInt64) (p : Parcel)
    (t : Session) : Prop where
  live : s.queues.get? h = some q
  only : ∃ f, t = s.modifyQueue h (·.modifyRing f) ∧ q.ring.Stores (f q.ring) i p ∧
    (f q.ring).writeIndex = next

theorem queue_of_live (isOpen : s.isOpen = true) (live : s.queues.get? h = some q) :
    queue h s = (.ok q, s) :=
  queue_eq_ok.mpr ⟨isOpen, live, rfl⟩

theorem modifyQueue_modifyQueue (s : Session) (h : Handle) (f g : Queue → Queue) :
    (s.modifyQueue h f).modifyQueue h g = s.modifyQueue h fun q => g (f q) := by
  rw [modifyQueue, modifyQueue, modifyQueue, Directory.modify, Directory.modify,
    Arena.modify_modify, Directory.modify]

/-- The session after a packet was published at an index, of which nobody has been told yet. -/
def withPacket (s : Session) (h : Handle) (i : UInt64) (p : Parcel) : Session :=
  s.modifyQueue h (·.modifyRing (·.deliver i p))

theorem get?_withPacket (live : s.queues.get? h = some q) :
    (s.withPacket h i p).queues.get? h = some (q.modifyRing (·.deliver i p)) := by
  rw [withPacket, modifyQueue, Directory.get?_modify_self, live, Option.map_some]

/-- A live queue is filled without fault. -/
theorem deliver_of_live (isOpen : s.isOpen = true) (live : s.queues.get? h = some q) :
    deliver h i p s =
      (storeSignal q.doorbell i.toInt64 .release >>= fun _ => pure i) (s.withPacket h i p) := by
  have written : writePacket h i p.packet s =
      (.ok (), s.modifyQueue h (·.modifyRing (·.write i p.packet))) := by
    rw [writePacket_at_once, bind_of_ok (queue_of_live isOpen live)]
    rfl
  have found : (s.modifyQueue h (·.modifyRing (·.write i p.packet))).queues.get? h = some _ :=
    (Directory.get?_modify_self ..).trans (congrArg _ live)
  have published : Session.publish h i p.header p.companion
      (s.modifyQueue h (·.modifyRing (·.write i p.packet))) = (.ok (), s.withPacket h i p) := by
    rw [publish_at_once, bind_of_ok (queue_of_live (by exact isOpen) found), modifyRing,
      change_apply, modifyQueue_modifyQueue]
    rfl
  rw [deliver, bind_of_ok written, bind_of_ok published, ringDoorbell]
  have again := queue_of_live (by exact isOpen) (get?_withPacket (i := i) (p := p) live)
  rw [bind_apply, bind_of_ok again]
  rfl

theorem fills_withPacket (live : s.queues.get? h = some q) (sized : q.ring.IsSized) :
    s.Fills h q i q.ring.writeIndex p (s.withPacket h i p) :=
  ⟨live, _, rfl, PacketRing.stores_deliver sized i p, rfl⟩

/-- A packet is in the slot of an index, and the doorbell of its queue holds the index. -/
structure Submitted (s : Session) (h : Handle) (q : Queue) (i next : UInt64) (p : Parcel)
    (t : Session) : Prop where
  filled : ∃ m, s.Fills h q i next p m ∧ t = m.modifySignal q.doorbell (·.setValue i.toInt64)
  rings : ∃ bell, s.signals.get? q.doorbell = some bell ∧
    t.signals.get? q.doorbell = some (bell.setValue i.toInt64)

/-- A packet is in the slot of an index, but the doorbell of its queue is gone, which is the fault
that the application is told of. -/
structure Unheard (s : Session) (h : Handle) (q : Queue) (i next : UInt64) (p : Parcel) (e : Fault)
    (t : Session) : Prop where
  filled : s.Fills h q i next p t
  silent : s.signals.get? q.doorbell = none
  fault : e = .invalidSignal q.doorbell

/-- What filling, publishing and ringing come to. -/
inductive Delivers (h : Handle) (i : UInt64) (p : Parcel) (s : Session) :
    Except Fault (Progress Submission UInt64) → Session → Prop where
  | refused {e : Fault} (unfit : ∀ q, s.isOpen = true → s.queues.get? h ≠ some q) :
      Delivers h i p s (.error e) s
  | unheard {q : Queue} {e : Fault} {t : Session}
      (unheard : s.Unheard h q i q.ring.writeIndex p e t) : Delivers h i p s (.error e) t
  | submitted {q : Queue} {t : Session} (submitted : s.Submitted h q i q.ring.writeIndex p t) :
      Delivers h i p s (.ok (.done i)) t

theorem delivers (sized : ∀ q, s.queues.get? h = some q → q.ring.IsSized) :
    Delivers h i p s (deliverWhenFree h p (.done i) s).1
      (deliverWhenFree h p (.done i) s).2 := by
  rw [deliverWhenFree]
  rcases queue_cases h s with ⟨q, isOpen, live, -⟩ | ⟨e, missing⟩
  · have filled := fills_withPacket (i := i) (p := p) live (sized q live)
    have opened : ensureOpen (s.withPacket h i p) = (.ok (), s.withPacket h i p) :=
      ensureOpen_eq_ok.mpr ⟨isOpen, rfl⟩
    rw [bind_apply, deliver_of_live isOpen live, storeSignal, bind_apply, bind_apply, signal,
      bind_of_ok opened, bind_of_ok (session_apply _)]
    -- the signals are as before the packet was published
    cases rings : s.signals.get? q.doorbell with
    | none =>
      have gone : (s.withPacket h i p).signals.get? q.doorbell = none := rings
      rw [gone]
      exact .unheard ⟨filled, rings, rfl⟩
    | some bell =>
      have there : (s.withPacket h i p).signals.get? q.doorbell = some bell := rings
      rw [there]
      refine .submitted ⟨⟨_, filled, rfl⟩, bell, rings, ?_⟩
      exact (Directory.get?_modify_self ..).trans (congrArg _ there)
  · have failed : deliver h i p s = (.error e, s) := bind_of_error (bind_of_error missing)
    rw [bind_of_error failed]
    refine .refused fun q isOpen live => ?_
    cases missing.symm.trans (queue_of_live isOpen live)

/-! ### Reserving a slot -/

/-- The session after one index was reserved. -/
def withIndex (s : Session) (h : Handle) : Session :=
  s.modifyQueue h (·.modifyRing fun r => (r.addWriteIndex 1).2)

theorem get?_withIndex (live : s.queues.get? h = some q) :
    (s.withIndex h).queues.get? h = some (q.modifyRing fun r => (r.addWriteIndex 1).2) := by
  rw [withIndex, modifyQueue, Directory.get?_modify_self, live, Option.map_some]

theorem resumeReserve_of_held {r : Reservation} (held : s.heldQueue? r.queue = some q) :
    resumeReserve r s =
      if q.ring.isFullAt r.last then
        if q.isActive then (.ok (.waiting r), s) else (.error (.invalidQueue r.queue), s)
      else (.ok (.done r.first), s) := by
  have found : demand (s.heldQueue? r.queue) (.invalidQueue r.queue) s = (.ok q, s) := by
    rw [held]
    rfl
  rw [resumeReserve, bind_of_ok (session_apply s), bind_of_ok found]
  by_cases full : q.ring.isFullAt r.last
  · simp only [full, if_true]
    cases q.isActive <;> rfl
  · simp only [full]
    rfl

/-- A queue has room for one packet, if it is empty. -/
theorem one_le_size (sized : q.ring.IsSized) : 1 ≤ q.size.toUInt64 := by
  have small := sized.lt
  have pos := sized.pos
  have same : q.size.toUInt64.toNat = q.ring.slots.size := by
    rw [Queue.size, UInt32.toNat_toUInt64, UInt64.toNat_toUInt32, PacketRing.toNat_size sized]
    exact Nat.mod_eq_of_lt small
  rw [UInt64.le_iff_toNat_le, same]
  exact pos

/-- What reserving one slot comes to. -/
inductive Reserves (h : Handle) (s : Session) :
    Except Fault (Progress Reservation UInt64) → Session → Prop where
  | refused {e : Fault}
      (unfit : ∀ q, s.isOpen = true → s.queues.get? h = some q → q.isActive = false) :
      Reserves h s (.error e) s
  | granted {q : Queue} (isOpen : s.isOpen = true) (live : s.queues.get? h = some q)
      (active : q.isActive = true)
      (fits : q.ring.writeIndex.toNat + 1 < 2 ^ 64)
      (free : q.ring.isFullAt q.ring.writeIndex = false) :
      Reserves h s (.ok (.done q.ring.writeIndex)) (s.withIndex h)
  | waits {q : Queue} (live : s.queues.get? h = some q) (active : q.isActive = true)
      (full : q.ring.isFullAt q.ring.writeIndex = true) :
      Reserves h s (.ok (.waiting ⟨h, q.ring.writeIndex, q.ring.writeIndex⟩)) (s.withIndex h)
  /-- The index is the last of all. -/
  | overflows {q : Queue} (live : s.queues.get? h = some q) (active : q.isActive = true)
      (last : q.ring.writeIndex.toNat + 1 = 2 ^ 64) :
      Reserves h s (.ok .overflowed) (s.withIndex h)

/-- An active queue reserves as many indices as it has slots, if the index after them is a word. The
write index moves in any case, past `2 ^ 64` if need be. -/
theorem reserve_of_active {count : UInt64} (isOpen : s.isOpen = true)
    (live : s.queues.get? h = some q) (active : q.isActive = true) (positive : count ≠ 0)
    (enough : count ≤ q.size.toUInt64) :
    reserve h count s =
      (.ok (if q.ring.writeIndex.toNat + count.toNat < 2 ^ 64 then
          if q.ring.isFullAt (q.ring.writeIndex + count - 1) then
            .waiting ⟨h, q.ring.writeIndex, q.ring.writeIndex + count - 1⟩
          else .done q.ring.writeIndex
        else .overflowed),
        s.modifyQueue h (·.modifyRing fun r => (r.addWriteIndex count).2)) := by
  have found : demand (s.heldQueue? h) (.invalidQueue h) s = (.ok q, s) := by
    rw [heldQueue?, Directory.held?_of_get? live]
    rfl
  have fewEnough : require (count != 0 && count ≤ q.size.toUInt64)
      (.argument (.reservation count q.size)) s = (.ok (), s) :=
    require_eq_ok.mpr ⟨by simp [positive, enough], rfl⟩
  have added : addWriteIndex h count .relaxed s = (.ok q.ring.writeIndex,
      s.modifyQueue h (·.modifyRing fun r => (r.addWriteIndex count).2)) := by
    have ready : activeQueue h s = (.ok q, s) := activeQueue_eq_ok.mpr ⟨isOpen, live, active, rfl⟩
    rw [addWriteIndex_at_once, bind_of_ok ready]
    rfl
  rw [reserve, bind_of_ok (session_apply s), bind_of_ok found, bind_of_ok fewEnough,
    bind_of_ok added]
  by_cases fits : q.ring.writeIndex.toNat + count.toNat < 2 ^ 64
  · have next : Word.add? q.ring.writeIndex count = some (q.ring.writeIndex + count) := if_pos fits
    have held : (s.modifyQueue h (·.modifyRing fun r => (r.addWriteIndex count).2)).heldQueue? h =
        some (q.modifyRing fun r => (r.addWriteIndex count).2) :=
      Directory.held?_of_get? ((Directory.get?_modify_self ..).trans (congrArg _ live))
    have still : (q.modifyRing fun r => (r.addWriteIndex count).2).isActive = true := active
    rw [next, if_pos fits]
    dsimp only
    rw [resumeReserve_of_held held, if_pos still]
    exact (apply_ite (fun answer => (Except.ok answer, _)) ..).symm
  · have none : Word.add? q.ring.writeIndex count = none := if_neg fits
    rw [none, if_neg fits]
    rfl

/-- An active queue grants an index, at once or later. -/
theorem reserves_of_active (isOpen : s.isOpen = true) (live : s.queues.get? h = some q)
    (active : q.isActive = true) (sized : q.ring.IsSized) :
    Reserves h s (reserve h 1 s).1 (reserve h 1 s).2 := by
  have itself : q.ring.writeIndex + 1 - 1 = q.ring.writeIndex := by simp
  rw [reserve_of_active isOpen live active (by decide) (one_le_size sized), itself]
  by_cases fits : q.ring.writeIndex.toNat + 1 < 2 ^ 64
  · dsimp only
    rw [if_pos (by exact fits)]
    cases full : q.ring.isFullAt q.ring.writeIndex with
    | true => exact .waits live active full
    | false => exact .granted isOpen live active fits full
  · dsimp only
    rw [if_neg (by exact fits)]
    have below := q.ring.writeIndex.toNat_lt
    exact .overflows live active (by omega)

theorem reserves (sized : ∀ q, s.queues.get? h = some q → q.ring.IsSized) :
    Reserves h s (reserve h 1 s).1 (reserve h 1 s).2 := by
  by_cases ready : ∃ q, s.isOpen = true ∧ s.queues.get? h = some q ∧ q.isActive = true
  · obtain ⟨q, isOpen, live, active⟩ := ready
    exact reserves_of_active isOpen live active (sized q live)
  · have unfit : ∀ q, s.isOpen = true → s.queues.get? h = some q → q.isActive = false :=
      fun q isOpen live => Bool.eq_false_iff.mpr fun active => ready ⟨q, isOpen, live, active⟩
    have stopped : ∃ e, addWriteIndex h 1 .relaxed s = (.error e, s) := by
      rcases (keeps_activeQueue h).answers s with ⟨q, found⟩ | ⟨e, missing⟩
      · obtain ⟨isOpen, live, active, -⟩ := activeQueue_eq_ok.mp found
        exact absurd ⟨q, isOpen, live, active⟩ ready
      · exact ⟨e, bind_of_error missing⟩
    obtain ⟨e, stopped⟩ := stopped
    rw [reserve, bind_of_ok (session_apply s)]
    rcases (keeps_demand _ _).answers s with ⟨q, found⟩ | ⟨e', missing⟩
    · rw [bind_of_ok found]
      rcases (keeps_require _ _).answers s with ⟨_, enough⟩ | ⟨e', tooMany⟩
      · rw [bind_of_ok enough, bind_of_error stopped]
        exact .refused unfit
      · rw [bind_of_error tooMany]
        exact .refused unfit
    · rw [bind_of_error missing]
      exact .refused unfit

/-! ### A whole call -/

/-- What is put into a queue after an index was reserved in it is in the queue, and one index more
is reserved. -/
theorem Fills.of_withIndex {next : UInt64} (live : s.queues.get? h = some q)
    (filled : (s.withIndex h).Fills h (q.modifyRing fun r => (r.addWriteIndex 1).2) i next p t) :
    s.Fills h q i next p t := by
  obtain ⟨-, f, rfl, stores, written⟩ := filled
  refine ⟨live, fun r => f (r.addWriteIndex 1).2, ?_, ?_, written⟩
  · rw [withIndex, modifyQueue_modifyQueue]
    rfl
  · exact ⟨stores.slot, stores.others, stores.readIndex⟩

/-- What a call comes to. -/
inductive Submits (h : Handle) (p : Parcel) (s : Session) :
    Except Fault (Progress Submission UInt64) → Session → Prop where
  | refused {e : Fault}
      (unfit : ∀ q, s.isOpen = true → s.queues.get? h = some q → q.isActive = false) :
      Submits h p s (.error e) s
  | unheard {q : Queue} {e : Fault} {t : Session} (active : q.isActive = true)
      (free : q.ring.isFullAt q.ring.writeIndex = false)
      (unheard : s.Unheard h q q.ring.writeIndex (q.ring.writeIndex + 1) p e t) :
      Submits h p s (.error e) t
  | submitted {q : Queue} {t : Session} (active : q.isActive = true)
      (free : q.ring.isFullAt q.ring.writeIndex = false)
      (submitted : s.Submitted h q q.ring.writeIndex (q.ring.writeIndex + 1) p t) :
      Submits h p s (.ok (.done q.ring.writeIndex)) t
  | waits {q : Queue} (live : s.queues.get? h = some q) (active : q.isActive = true)
      (full : q.ring.isFullAt q.ring.writeIndex = true) :
      Submits h p s (.ok (.waiting ⟨⟨h, q.ring.writeIndex, q.ring.writeIndex⟩, p⟩))
        (s.withIndex h)
  | overflows {q : Queue} (live : s.queues.get? h = some q) (active : q.isActive = true)
      (last : q.ring.writeIndex.toNat + 1 = 2 ^ 64) :
      Submits h p s (.ok .overflowed) (s.withIndex h)

theorem submits (sized : ∀ q, s.queues.get? h = some q → q.ring.IsSized) :
    Submits h p s (submit h p s).1 (submit h p s).2 := by
  have reserved := reserves sized
  rw [submit]
  rcases answer : reserve h 1 s with ⟨a, m⟩
  rw [answer] at reserved
  cases reserved with
  | refused unfit =>
    rw [bind_of_error answer]
    exact .refused unfit
  | waits live active full =>
    rw [bind_of_ok answer]
    exact .waits live active full
  | overflows live active last =>
    rw [bind_of_ok answer]
    exact .overflows live active last
  | @granted q isOpen live active fits free =>
    have there := get?_withIndex live
    have delivered := delivers (i := q.ring.writeIndex) (p := p) (s := s.withIndex h) (h := h) <| by
      intro q' live'
      obtain rfl := Option.some.inj (there.symm.trans live')
      exact (sized q live).congr rfl
    rw [bind_of_ok answer]
    rcases outcome : deliverWhenFree h p (.done q.ring.writeIndex) (s.withIndex h) with ⟨b, t⟩
    show Submits h p s (deliverWhenFree h p (.done q.ring.writeIndex) (s.withIndex h)).1
      (deliverWhenFree h p (.done q.ring.writeIndex) (s.withIndex h)).2
    rw [outcome] at delivered ⊢
    cases delivered with
    | refused unfit => exact absurd there (unfit _ isOpen)
    | unheard unheard =>
      obtain ⟨filled, silent, rfl⟩ := unheard
      obtain rfl := Option.some.inj (there.symm.trans filled.live)
      exact .unheard active free ⟨filled.of_withIndex live, silent, rfl⟩
    | submitted submitted =>
      obtain ⟨⟨u, filled, rfl⟩, rings⟩ := submitted
      obtain rfl := Option.some.inj (there.symm.trans filled.live)
      exact .submitted active free ⟨⟨u, filled.of_withIndex live, rfl⟩, rings⟩

/-- What a call comes to that had to wait for its slot. -/
inductive Resumes (w : Submission) (s : Session) :
    Except Fault (Progress Submission UInt64) → Session → Prop where
  | refused {e : Fault} : Resumes w s (.error e) s
  | unheard {q : Queue} {e : Fault} {t : Session}
      (free : q.ring.isFullAt w.reservation.last = false)
      (unheard : s.Unheard w.reservation.queue q w.reservation.first q.ring.writeIndex w.parcel e
        t) : Resumes w s (.error e) t
  | submitted {q : Queue} {t : Session} (free : q.ring.isFullAt w.reservation.last = false)
      (submitted : s.Submitted w.reservation.queue q w.reservation.first q.ring.writeIndex w.parcel
        t) : Resumes w s (.ok (.done w.reservation.first)) t
  | waits : Resumes w s (.ok (.waiting w)) s

theorem resumes {w : Submission}
    (sized : ∀ q, s.queues.get? w.reservation.queue = some q → q.ring.IsSized) :
    Resumes w s (resumeSubmit w s).1 (resumeSubmit w s).2 := by
  rw [resumeSubmit]
  cases held : s.heldQueue? w.reservation.queue with
  | none =>
    have missing : resumeReserve w.reservation s =
        (.error (.invalidQueue w.reservation.queue), s) := by
      rw [resumeReserve, bind_of_ok (session_apply s), held]
      rfl
    rw [bind_of_error missing]
    exact .refused
  | some q =>
    have resumed := resumeReserve_of_held held
    cases full : q.ring.isFullAt w.reservation.last with
    | true =>
      rw [full, if_pos rfl] at resumed
      cases active : q.isActive with
      | true =>
        rw [active, if_pos rfl] at resumed
        rw [bind_of_ok resumed]
        exact .waits
      | false =>
        rw [active, if_neg Bool.false_ne_true] at resumed
        rw [bind_of_error resumed]
        exact .refused
    | false =>
      rw [full, if_neg Bool.false_ne_true] at resumed
      rw [bind_of_ok resumed]
      have delivered := delivers (i := w.reservation.first) (p := w.parcel) sized
      rcases outcome : deliverWhenFree w.reservation.queue w.parcel (.done w.reservation.first) s
        with ⟨b, t⟩
      rw [outcome] at delivered
      -- a queue that is live is the one that is held
      have same : ∀ q', s.queues.get? w.reservation.queue = some q' → q' = q := fun q' live =>
        Directory.eq_of_held? held live
      cases delivered with
      | refused => exact .refused
      | unheard unheard =>
        obtain rfl := same _ unheard.filled.live
        exact .unheard full unheard
      | submitted submitted =>
        obtain ⟨⟨u, filled, rfl⟩, rings⟩ := submitted
        obtain rfl := same _ filled.live
        exact .submitted full ⟨⟨u, filled, rfl⟩, rings⟩

end Session

/-! ### The packets of one call -/

/-- A packet that is submitted by one call. -/
inductive OneShot where
  | dispatch (packet : KernelDispatch)
  | barrierAnd (dependencies : List Handle) (completion : Option Handle)

namespace OneShot

/-- The call. -/
def submit (h : Handle) : OneShot → Action (Progress Submission UInt64)
  | dispatch packet => Session.dispatch h packet
  | barrierAnd dependencies completion => Session.barrierAnd h dependencies completion

/-- The packet fits its layout: a barrier has places for so many dependencies only. -/
def Fits : OneShot → Prop
  | dispatch _ => True
  | barrierAnd dependencies _ => dependencies.length ≤ Barrier.dependencyCount

/-- The packet, with the header of its type and its companion field. -/
def parcel : OneShot → Parcel
  | dispatch packet => ⟨.ofBody (.kernel packet), .ofType .kernelDispatch, packet.setup⟩
  | barrierAnd dependencies completion =>
    ⟨.ofBody (.barrierAnd
        { header := 0, reserved0 := 0, reserved1 := 0
          dependencies := .ofFn fun i => (dependencies[i.val]?).elim 0 (·.raw)
          reserved2 := 0, completionSignal := (completion.getD .null).raw }),
      (Header.ofType .barrierAnd).withBarrier true, 0⟩

open Session Accelerator.Action

variable {s t : Session} {h : Handle}

theorem submit_of_fits {o : OneShot} (fits : o.Fits) : o.submit h = Session.submit h o.parcel := by
  cases o with
  | dispatch packet => rfl
  | barrierAnd dependencies completion =>
    funext s
    have few : require (dependencies.length ≤ Barrier.dependencyCount)
        (.argument (.dependencies dependencies.length)) s = (.ok (), s) :=
      require_eq_ok.mpr ⟨decide_eq_true fits, rfl⟩
    rw [submit, Session.barrierAnd, bind_of_ok few]
    rfl

/-- A packet that does not fit is refused before anything else. -/
theorem submit_of_not_fits {o : OneShot} (unfit : ¬ o.Fits) (s : Session) :
    ∃ e, o.submit h s = (.error e, s) := by
  cases o with
  | dispatch packet => exact absurd trivial unfit
  | barrierAnd dependencies completion =>
    rcases (keeps_require (R := Eq) (dependencies.length ≤ Barrier.dependencyCount)
      (.argument (.dependencies dependencies.length))).answers s with ⟨_, few⟩ | ⟨e, many⟩
    · exact absurd (of_decide_eq_true (require_eq_ok.mp few).1) unfit
    · exact ⟨e, bind_of_error many⟩

/-- What a call comes to, for packets that fit and for others. -/
inductive Outcome (h : Handle) (o : OneShot) (s : Session) :
    Except Fault (Progress Submission UInt64) → Session → Prop where
  | unfit {e : Fault} (unfit : ¬ o.Fits) : Outcome h o s (.error e) s
  | fits {a : Except Fault (Progress Submission UInt64)} {t : Session} (fits : o.Fits)
      (called : Submits h o.parcel s a t) : Outcome h o s a t

theorem submits (o : OneShot) (sized : ∀ q, s.queues.get? h = some q → q.ring.IsSized) :
    o.Outcome h s (o.submit h s).1 (o.submit h s).2 := by
  by_cases fits : o.Fits
  · rw [submit_of_fits fits]
    exact .fits fits (Session.submits sized)
  · obtain ⟨e, refused⟩ := submit_of_not_fits (h := h) fits s
    rw [refused]
    exact .unfit fits

end OneShot

namespace Session

open Accelerator.Action

variable {s : Session}

/-- A call that submits one packet answers with the index that was next when it began, and with the
packet at that index, the doorbell telling of it; or it is refused and has done nothing. If it is
refused because the doorbell is gone, the packet has been published all the same. If it has to wait
for its slot it has reserved its index; what it comes to later is told in the same way. -/
theorem Reachable.submits_or_refuses (reachable : s.Reachable) (h : Handle) (o : OneShot) :
    (∀ i t, o.submit h s = (.ok (.done i), t) → ∃ q, q.isActive = true ∧ q.ring.writeIndex = i ∧
      q.ring.isFullAt i = false ∧ s.Submitted h q i (i + 1) o.parcel t) ∧
    (∀ e t, o.submit h s = (.error e, t) → t = s ∨ ∃ q, q.isActive = true ∧
      q.ring.isFullAt q.ring.writeIndex = false ∧
      s.Unheard h q q.ring.writeIndex (q.ring.writeIndex + 1) o.parcel e t) ∧
    (∀ w t, o.submit h s = (.ok (.waiting w), t) → ∃ q, s.queues.get? h = some q ∧
      q.isActive = true ∧ q.ring.isFullAt q.ring.writeIndex = true ∧
      w = ⟨⟨h, q.ring.writeIndex, q.ring.writeIndex⟩, o.parcel⟩ ∧ t = s.withIndex h) ∧
    (∀ q bell, o.Fits → s.isOpen = true → s.queues.get? h = some q → q.isActive = true →
      q.ring.isFullAt q.ring.writeIndex = false → q.ring.writeIndex.toNat + 1 < 2 ^ 64 →
      s.signals.get? q.doorbell = some bell →
      ∃ t, o.submit h s = (.ok (.done q.ring.writeIndex), t)) ∧
    ∀ w : Submission,
      (∀ i t, resumeSubmit w s = (.ok (.done i), t) → i = w.reservation.first ∧
        ∃ q, q.ring.isFullAt w.reservation.last = false ∧
          s.Submitted w.reservation.queue q i q.ring.writeIndex w.parcel t) ∧
      (∀ e t, resumeSubmit w s = (.error e, t) → t = s ∨ ∃ q,
        q.ring.isFullAt w.reservation.last = false ∧
          s.Unheard w.reservation.queue q w.reservation.first q.ring.writeIndex w.parcel e t) := by
  have sized : ∀ (k : Handle) (q : Queue), s.queues.get? k = some q → q.ring.IsSized :=
    fun k q live => reachable.isSized live
  refine ⟨fun i t answer => ?_, fun e t failed => ?_, fun w t waiting => ?_,
    fun q bell fits isOpen live active free small rings => ?_, fun w => ⟨fun i t answer => ?_,
    fun e t failed => ?_⟩⟩
  · have called := o.submits (sized h)
    rw [answer] at called
    cases called with
    | fits _ called =>
      cases called with
      | submitted active free submitted => exact ⟨_, active, rfl, free, submitted⟩
  · have called := o.submits (sized h)
    rw [failed] at called
    cases called with
    | unfit => exact .inl rfl
    | fits _ called =>
      cases called with
      | refused => exact .inl rfl
      | unheard active free unheard => exact .inr ⟨_, active, free, unheard⟩
  · have called := o.submits (sized h)
    rw [waiting] at called
    cases called with
    | fits _ called =>
      cases called with
      | waits live active full => exact ⟨_, live, active, full, rfl, rfl⟩
  · have called := o.submits (sized h)
    have same : ∀ q', s.queues.get? h = some q' → q' = q := fun q' live' =>
      Option.some.inj (live'.symm.trans live)
    rcases answer : o.submit h s with ⟨a, t⟩
    rw [answer] at called
    cases called with
    | unfit unfit => exact absurd fits unfit
    | fits _ called =>
      cases called with
      | refused unfit => cases (unfit q isOpen live).symm.trans active
      | unheard _ _ unheard =>
        obtain rfl := same _ unheard.filled.live
        cases unheard.silent.symm.trans rings
      | submitted _ _ submitted =>
        obtain ⟨m, filled, -⟩ := submitted.filled
        obtain rfl := same _ filled.live
        exact ⟨t, rfl⟩
      | waits there _ full =>
        obtain rfl := same _ there
        cases full.symm.trans free
      | overflows there _ last =>
        obtain rfl := same _ there
        exact absurd last small.ne
  · have resumed := resumes (sized w.reservation.queue)
    rw [answer] at resumed
    cases resumed with
    | submitted free submitted => exact ⟨rfl, _, free, submitted⟩
  · have resumed := resumes (sized w.reservation.queue)
    rw [failed] at resumed
    cases resumed with
    | refused => exact .inl rfl
    | unheard free unheard => exact .inr ⟨_, free, unheard⟩

/-- A kernel dispatch of one work-item. -/
def oneItem : KernelDispatch where
  header := 0
  setup := 1
  workgroup := ⟨1, 1, 1⟩
  reserved0 := 0
  grid := ⟨1, 1, 1⟩
  privateSegmentSize := 0
  groupSegmentSize := 0
  kernelObject := 0
  kernargAddress := 0
  reserved2 := 0
  completionSignal := 0

/-- The first packet of a soft queue. -/
theorem submits_first : ∃ s t : Session, s.Ascending ∧
    dispatch (.ofParts 0 1) oneItem s = (.ok (.done 0), t) ∧
    ∃ q, q.ring.writeIndex = 0 ∧
      s.Submitted (.ofParts 0 1) q 0 1 (OneShot.dispatch oneItem).parcel t := by
  have opened : Ascending (.ofConfig .default) := .opened (c := .default) rfl
  have signalled := opened.step (.lasting (o := .createSignal 0 0 [])
    ⟨by decide, by decide, by decide⟩ ⟨nofun, nofun⟩)
  have queued := signalled.step
    (.lasting (o := .createSoftQueue (.ofParts 0 1) 2 .multi .agentDispatch (.ofParts 0 1))
      ⟨by decide, by decide, by decide⟩ ⟨nofun, nofun⟩)
  have called :=
    (queued.hosted.reachable.submits_or_refuses (.ofParts 0 1) (.dispatch oneItem)).1 0 _ rfl
  obtain ⟨q, -, first, -, submitted⟩ := called
  exact ⟨_, _, queued, rfl, q, first, submitted⟩

/-- A call that is refused may have done something. When the doorbell is gone, the packet is
published, and the consumer takes it. When the queue ends while the call waits for a slot, the
index that it had reserved is not given back. -/
theorem not_submits_whole :
    (∃ s t u : Session, ∃ view, s.Ascending ∧
      dispatch (.ofParts 0 1) oneItem s = (.error (.invalidSignal (.ofParts 0 1)), t) ∧
      (s.queues.get? (.ofParts 0 1)).map (·.ring.writeIndex) = some 0 ∧
      (t.queues.get? (.ofParts 0 1)).map (·.ring.writeIndex) = some 1 ∧
      tryNext (.ofParts 0 1) s = (.ok none, s) ∧
      tryNext (.ofParts 0 1) t = (.ok (some (view, .completed)), u)) ∧
    ∃ s t u v : Session, ∃ w, s.Ascending ∧
      dispatch (.ofParts 0 1) oneItem s = (.ok (.waiting w), t) ∧
      inactivateQueue (.ofParts 0 1) t = (.ok (), u) ∧
      resumeSubmit w u = (.error (.invalidQueue (.ofParts 0 1)), v) ∧
      (s.queues.get? (.ofParts 0 1)).map (·.ring.writeIndex) = some 1 ∧
      (v.queues.get? (.ofParts 0 1)).map (·.ring.writeIndex) = some 2 := by
  have opened : Ascending (.ofConfig .default) := .opened (c := .default) rfl
  have signalled := opened.step (.lasting (o := .createSignal 0 0 [])
    ⟨by decide, by decide, by decide⟩ ⟨nofun, nofun⟩)
  constructor
  · have queued := signalled.step
      (.lasting (o := .createSoftQueue (.ofParts 0 1) 2 .multi .agentDispatch (.ofParts 0 1))
        ⟨by decide, by decide, by decide⟩ ⟨nofun, nofun⟩)
    have silent := queued.step (.lasting (o := .destroySignal (.ofParts 0 1))
      ⟨by decide, by decide, by decide⟩ ⟨nofun, nofun⟩)
    exact ⟨_, _, _, _, silent, rfl, rfl, rfl, rfl, rfl⟩
  · have queued := signalled.step
      (.lasting (o := .createSoftQueue (.ofParts 0 1) 1 .multi .agentDispatch (.ofParts 0 1))
        ⟨by decide, by decide, by decide⟩ ⟨nofun, nofun⟩)
    have full := queued.step
      (.lasting (o := .submit (.ofParts 0 1) (OneShot.dispatch oneItem).parcel)
        ⟨by decide, by decide, by decide⟩ ⟨nofun, nofun⟩)
    exact ⟨_, _, _, _, _, full, rfl, rfl, rfl, rfl, rfl⟩

end Session

end Accelerator
