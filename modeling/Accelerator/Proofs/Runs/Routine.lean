import Accelerator.Proofs.Handles.Directory
import Accelerator.Proofs.Ring.Slots
import Accelerator.Proofs.Runs.Actions

/-!
# Routine

Most of what the application does neither makes nor destroys a queue, and neither hands out memory
nor takes any back, nor has to do with code. All of it is made of a few kinds of change: a signal
gets another value or is destroyed, bytes of memory change, a ring is filled or consumed, a queue
accepts no more reservations, time passes. These actions are the *routine* of a session.

What is to be shown of routine is shown of its kinds of change, once for each kind.

## Why steps and not results

`Session.Routine` is made of single changes and closed under composition, and each of them is as
small as it can be. A property that is a preorder is then shown of six changes, and never of a
chain. The change of a ring is guarded: the write index of a queue that accepts no reservations
stays. That the application cannot move it as a whole goes back to this one guard.

## Main definitions

* `Session.Routine`: one session comes from another by routine, in which the rings of certain queues
  only were touched.

## Main results

* `Session.keeps_storeSignal`, `Session.keeps_submit` and their like: actions that are routine.
* `Session.Routine.sameQueues`: routine that touches no ring leaves the queues.
-/

namespace Accelerator

namespace Session

open Accelerator.Action

variable {s t : Session} {touched : Handle → Prop} {h : Handle}

/-- One session comes from another by routine, in which certain queues only were touched. -/
inductive Routine (touched : Handle → Prop) : Session → Session → Prop where
  | refl (s : Session) : Routine touched s s
  | trans {s t u : Session} : Routine touched s t → Routine touched t u → Routine touched s u
  | setSignal (s : Session) (h : Handle) (value : Signal → Int64) :
      Routine touched s (s.modifySignal h fun signal => signal.setValue (value signal))
  | dropSignal {s : Session} {h : Handle} {signal : Signal} {signals : Directory Signal}
      (removed : s.signals.remove h id = some (signal, signals)) :
      Routine touched s { s with signals }
  | fill (s : Session) (contents : Contents) :
      Routine touched s { s with memory := { s.memory with contents } }
  /-- The write index is that of a queue that accepts reservations, or it stays. -/
  | ring {h : Handle} (touch : touched h) (s : Session) (f : PacketRing → PacketRing)
      (sized : ∀ r, (f r).slots.size = r.slots.size)
      (guarded : ∀ q, s.queues.get? h = some q → q.isActive = false →
        (f q.ring).writeIndex = q.ring.writeIndex) :
      Routine touched s (s.modifyQueue h (·.modifyRing f))
  | inactivate {h : Handle} (touch : touched h) (s : Session) :
      Routine touched s (s.modifyQueue h (·.inactivate))
  | tick (s : Session) (clock : UInt64) : Routine touched s { s with clock }

instance (touched : Handle → Prop) : IsPreorder Session (Routine touched) where
  refl := .refl
  trans _ _ _ := .trans

/-! ### Signals -/

theorem keeps_destroySignal (h : Handle) : Keeps (Routine touched) (destroySignal h) :=
  keeps_ensureOpen.bind fun _ => .bind_session fun s => by
    cases removed : s.signals.remove h id with
    | none => exact .refl s
    | some found => exact .dropSignal removed

theorem keeps_storeSignal (h : Handle) (value : Int64) (order : MemoryOrder) :
    Keeps (Routine touched) (storeSignal h value order) :=
  (keeps_signal h).bind fun _ => (keeps_liftM _).bind fun _ =>
    keeps_change fun s => .setSignal s h fun _ => value

theorem keeps_updateSignal (h : Handle) (update : Signal.Update) (order : MemoryOrder) :
    Keeps (Routine touched) (updateSignal h update order) :=
  (keeps_signal h).bind fun _ =>
    (keeps_change fun s => .setSignal s h fun signal => update.apply signal.value).bind fun _ =>
      keeps_pure _

theorem keeps_ringDoorbell (h : Handle) (index : UInt64) :
    Keeps (Routine touched) (ringDoorbell h index) :=
  (keeps_queue h).bind fun _ => keeps_storeSignal _ _ _

theorem keeps_complete (completion : UInt64) : Keeps (Routine touched) (complete completion) := by
  rw [complete]
  split
  · exact keeps_pure _
  · exact keeps_session.bind fun _ => (keeps_demand _ _).bind fun _ =>
      (keeps_updateSignal _ _ _).discard

/-! ### The contents of memory -/

theorem routine_overwrite (s : Session) (address : UInt64) (bs : List UInt8) :
    s.Routine touched { s with memory := s.memory.overwrite address bs } :=
  .fill s _

theorem routine_writeBytes? {address : UInt64} {bs : List UInt8} {memory : Memory}
    (written : s.memory.writeBytes? address bs = some memory) :
    s.Routine touched { s with memory } := by
  rw [Memory.writeBytes?] at written
  split at written
  · cases written
    exact routine_overwrite s address bs
  · cases written

theorem routine_fetchAdd? {width : Nat} {address : UInt64} {amount previous : Nat}
    {memory : Memory} (added : s.memory.fetchAdd? width address amount = some (previous, memory)) :
    s.Routine touched { s with memory } := by
  rw [Memory.fetchAdd?] at added
  split at added
  · cases added
    exact routine_overwrite s address _
  · cases added

theorem routine_copy {target source size : UInt64} {memory : Memory}
    (copied : s.memory.copy target source size = .ok memory) :
    s.Routine touched { s with memory } := by
  rw [Memory.copy] at copied
  split at copied
  · cases copied
  · split at copied
    · cases copied
      exact .refl s
    · split at copied
      · cases copied
      · split at copied
        · cases copied
        · cases copied
          exact routine_overwrite s target _

theorem keeps_writeMemory (address : UInt64) (bs : List UInt8) :
    Keeps (Routine touched) (writeMemory address bs) :=
  keeps_ensureOpen.bind fun _ => .bind_session fun s => by
    cases written : s.memory.writeBytes? address bs with
    | none => exact .refl s
    | some memory => exact routine_writeBytes? written

theorem keeps_copyMemory (target source size : UInt64) :
    Keeps (Routine touched) (copyMemory target source size) :=
  keeps_ensureOpen.bind fun _ => .bind_session fun s => by
    cases copied : s.memory.copy target source size with
    | error cause =>
      rw [bind_apply]
      exact .refl s
    | ok memory => exact routine_copy copied

/-! ### Steps in rings

A call on a queue checks the queue before it takes its step in the ring. As an action the call is
made at once, so the queue is still there when the step is taken. -/

/-- Changes the ring of a live queue. -/
def modifyRing (h : Handle) (f : PacketRing → PacketRing) : Action Unit :=
  change fun s => s.modifyQueue h (·.modifyRing f)

theorem stepRing_of_live {q : Queue} (live : s.queues.get? h = some q) (op : RingOp) :
    stepRing h op s = (.ok q.ring, s.modifyQueue h (·.modifyRing op.apply)) := by
  have held : demand (s.heldQueue? h) (.invalidQueue h) s = (.ok q, s) :=
    demand_eq_ok.mpr ⟨Directory.held?_of_get? live, rfl⟩
  have kept : s.modifyHeldQueue h (·.modifyRing op.apply) =
      s.modifyQueue h (·.modifyRing op.apply) := by
    rw [modifyHeldQueue, Directory.modifyHeld_of_live live, modifyQueue]
  rw [stepRing, bind_of_ok (session_apply s), bind_of_ok held, ← kept]
  rfl

/-- After the check of a queue the queue is live. -/
theorem queue_bind_congr {α : Type} {f g : Queue → Action α}
    (same : ∀ q s, s.queues.get? h = some q → f q s = g q s) :
    (queue h >>= f) = (queue h >>= g) :=
  funext fun s => bind_congr_at fun q t found => by
    obtain ⟨-, live, rfl⟩ := queue_eq_ok.mp found
    exact same q s live

theorem activeQueue_bind_congr {α : Type} {f g : Queue → Action α}
    (same : ∀ q s, s.queues.get? h = some q → f q s = g q s) :
    (activeQueue h >>= f) = (activeQueue h >>= g) :=
  funext fun s => bind_congr_at fun q t found => by
    obtain ⟨-, live, -, rfl⟩ := activeQueue_eq_ok.mp found
    exact same q s live

theorem discard_stepRing_of_live {q : Queue} (live : s.queues.get? h = some q) (op : RingOp) :
    discard (stepRing h op) s = modifyRing h op.apply s :=
  (bind_of_ok (stepRing_of_live live op)).trans rfl

/-- A store to an index looks at the order of memory first. -/
theorem ordered_stepRing_of_live {q : Queue} (live : s.queues.get? h = some q) (op : RingOp)
    {α : Type} (order : Except Fault α) :
    ((liftM order : Action α) >>= fun _ => discard (stepRing h op)) s =
      ((liftM order : Action α) >>= fun _ => modifyRing h op.apply) s :=
  bind_congr_at fun _ _ ordered => by
    obtain ⟨-, rfl⟩ := liftM_eq_ok.mp ordered
    exact discard_stepRing_of_live live op

theorem storeReadIndex_at_once (h : Handle) (value : UInt64) (order : MemoryOrder) :
    storeReadIndex h value order = (do
      let _ ← queue h
      let _ ← order.forStore
      modifyRing h (·.setReadIndex value)) :=
  queue_bind_congr fun _ _ live => ordered_stepRing_of_live live (.setReadIndex value) _

theorem storeWriteIndex_at_once (h : Handle) (value : UInt64) (order : MemoryOrder) :
    storeWriteIndex h value order = (do
      let _ ← activeQueue h
      let _ ← order.forStore
      modifyRing h (·.setWriteIndex value)) :=
  activeQueue_bind_congr fun _ _ live => ordered_stepRing_of_live live (.setWriteIndex value) _

theorem compareAndSwapWriteIndex_at_once (h : Handle) (expected value : UInt64)
    (order : MemoryOrder) :
    compareAndSwapWriteIndex h expected value order = (do
      let q ← activeQueue h
      modifyRing h fun r => (r.compareAndSwapWriteIndex expected value).2
      return q.ring.writeIndex) :=
  activeQueue_bind_congr fun _ _ live =>
    (bind_of_ok (stepRing_of_live live (.compareAndSwapWriteIndex expected value))).trans rfl

theorem addWriteIndex_at_once (h : Handle) (count : UInt64) (order : MemoryOrder) :
    addWriteIndex h count order = (do
      let q ← activeQueue h
      modifyRing h fun r => (r.addWriteIndex count).2
      return q.ring.writeIndex) :=
  activeQueue_bind_congr fun _ _ live =>
    (bind_of_ok (stepRing_of_live live (.addWriteIndex count))).trans rfl

theorem writePacket_at_once (h : Handle) (index : UInt64) (packet : Slot) :
    writePacket h index packet = (do
      let _ ← queue h
      modifyRing h (·.write index packet)) :=
  queue_bind_congr fun _ _ live => discard_stepRing_of_live live (.write index packet)

theorem publish_at_once (h : Handle) (index : UInt64) (header : Header) (companion : UInt16) :
    publish h index header companion = (do
      let _ ← queue h
      modifyRing h (·.publish index header companion)) :=
  queue_bind_congr fun _ _ live => discard_stepRing_of_live live (.publish index header companion)

/-! ### Rings -/

theorem routine_modifyRing (s : Session) (h : Handle) {f : PacketRing → PacketRing}
    (sized : ∀ r, (f r).slots.size = r.slots.size)
    (fixed : ∀ r, (f r).writeIndex = r.writeIndex) :
    s.Routine (· = h) (s.modifyQueue h (·.modifyRing f)) := by
  refine .ring ?_ s f sized fun q _ _ => fixed q.ring
  rfl

theorem keeps_modifyRing (h : Handle) {f : PacketRing → PacketRing}
    (sized : ∀ r, (f r).slots.size = r.slots.size)
    (fixed : ∀ r, (f r).writeIndex = r.writeIndex) : Keeps (Routine (· = h)) (modifyRing h f) :=
  fun s => s.routine_modifyRing h sized fixed

/-- A queue that accepts reservations may have its write index set. -/
theorem keeps_reserving {α : Type} (h : Handle) {f : Queue → Action α}
    {g : PacketRing → PacketRing} (sized : ∀ r, (g r).slots.size = r.slots.size)
    (sets : ∀ q s, (f q s).2 = s ∨ (f q s).2 = s.modifyQueue h (·.modifyRing g)) :
    Keeps (Routine (· = h)) (activeQueue h >>= f) := by
  intro s
  rcases (keeps_activeQueue (R := Eq) h).answers s with ⟨q, found⟩ | ⟨e, missing⟩
  · rw [bind_of_ok found]
    obtain ⟨-, live, active, -⟩ := activeQueue_eq_ok.mp found
    rcases sets q s with same | set
    · rw [same]
      exact .refl s
    · rw [set]
      refine .ring ?_ s g sized fun q' live' ended => ?_
      · rfl
      · obtain rfl : q = q' := Option.some.inj (live.symm.trans live')
        cases active.symm.trans ended
  · rw [bind_of_error missing]
    exact .refl s

theorem keeps_storeReadIndex (h : Handle) (value : UInt64) (order : MemoryOrder) :
    Keeps (Routine (· = h)) (storeReadIndex h value order) :=
  storeReadIndex_at_once h value order ▸ (keeps_queue h).bind fun _ => (keeps_liftM _).bind fun _ =>
    keeps_modifyRing h (fun _ => rfl) fun _ => rfl

theorem keeps_storeWriteIndex (h : Handle) (value : UInt64) (order : MemoryOrder) :
    Keeps (Routine (· = h)) (storeWriteIndex h value order) := by
  rw [storeWriteIndex_at_once]
  refine keeps_reserving h (g := (·.setWriteIndex value)) (fun _ => rfl) fun q s => ?_
  cases order with
  | relaxed | release => exact .inr rfl
  | acquire | acquireRelease => exact .inl rfl

theorem keeps_compareAndSwapWriteIndex (h : Handle) (expected value : UInt64)
    (order : MemoryOrder) :
    Keeps (Routine (· = h)) (compareAndSwapWriteIndex h expected value order) := by
  rw [compareAndSwapWriteIndex_at_once]
  refine keeps_reserving h (g := fun r => (r.compareAndSwapWriteIndex expected value).2)
    (fun r => ?_) fun _ _ => .inr rfl
  rw [PacketRing.compareAndSwapWriteIndex]
  split <;> rfl

theorem keeps_addWriteIndex (h : Handle) (count : UInt64) (order : MemoryOrder) :
    Keeps (Routine (· = h)) (addWriteIndex h count order) := by
  rw [addWriteIndex_at_once]
  exact keeps_reserving h (g := fun r => (r.addWriteIndex count).2) (fun _ => rfl)
    fun _ _ => .inr rfl

theorem keeps_resumeReserve (r : Reservation) : Keeps (Routine touched) (resumeReserve r) :=
  keeps_session.bind fun _ => (keeps_demand _ _).bind fun q => by
    split
    · exact (keeps_require _ _).bind fun _ => keeps_pure _
    · exact keeps_pure _

theorem keeps_reserve (h : Handle) (count : UInt64) : Keeps (Routine (· = h)) (reserve h count) :=
  keeps_session.bind fun _ => (keeps_demand _ _).bind fun _ => (keeps_require _ _).bind fun _ =>
    (keeps_addWriteIndex h _ _).bind fun _ => by
      split
      · exact keeps_pure _
      · exact keeps_resumeReserve _

theorem keeps_writePacket (h : Handle) (index : UInt64) (packet : Slot) :
    Keeps (Routine (· = h)) (writePacket h index packet) :=
  writePacket_at_once h index packet ▸ (keeps_queue h).bind fun _ =>
    keeps_modifyRing h (fun r => r.size_modifySlot index _) fun _ => rfl

theorem keeps_publish (h : Handle) (index : UInt64) (header : Header) (companion : UInt16) :
    Keeps (Routine (· = h)) (publish h index header companion) :=
  publish_at_once h index header companion ▸ (keeps_queue h).bind fun _ =>
    keeps_modifyRing h (fun r => r.size_modifySlot index _) fun _ => rfl

theorem keeps_deliverWhenFree (h : Handle) (parcel : Parcel) (p : Progress Reservation UInt64) :
    Keeps (Routine (· = h)) (deliverWhenFree h parcel p) := by
  cases p with
  | done index =>
    exact ((keeps_writePacket h _ _).bind fun _ => (keeps_publish h _ _ _).bind fun _ =>
      (keeps_ringDoorbell h _).bind fun _ => keeps_pure _).bind fun _ => keeps_pure _
  | waiting r => exact keeps_pure _
  | overflowed => exact keeps_pure _

theorem keeps_resumeSubmit (w : Submission) :
    Keeps (Routine (· = w.reservation.queue)) (resumeSubmit w) :=
  (keeps_resumeReserve _).bind fun _ => keeps_deliverWhenFree _ _ _

theorem keeps_submit (h : Handle) (parcel : Parcel) :
    Keeps (Routine (· = h)) (submit h parcel) :=
  (keeps_reserve h 1).bind fun _ => keeps_deliverWhenFree h _ _

theorem keeps_barrierAnd (h : Handle) (dependencies : List Handle) (completion : Option Handle) :
    Keeps (Routine (· = h)) (barrierAnd h dependencies completion) :=
  (keeps_require _ _).bind fun _ => keeps_submit h _

theorem keeps_inactivateQueue (h : Handle) : Keeps (Routine (· = h)) (inactivateQueue h) :=
  (keeps_queue h).bind fun _ => keeps_change fun s => by
    refine .inactivate ?_ s
    rfl

/-! ### What routine leaves -/

/-- Routine that touches no ring leaves the queues. -/
theorem Routine.sameQueues (routine : s.Routine (fun _ => False) t) : s.SameQueues t := by
  induction routine with
  | refl s => exact refl_of SameQueues s
  | trans _ _ first second => exact first.trans second
  | setSignal | dropSignal | fill | tick => exact ⟨rfl, rfl, rfl, fun _ => rfl⟩
  | ring touch | inactivate touch => exact touch.elim

/-! ### Consuming packets -/

/-- What the ring of a queue is set to when a packet is consumed. -/
theorem routine_modifyHeldRing {q : Queue} (live : s.queues.get? h = some q)
    {f : PacketRing → PacketRing} (sized : ∀ r, (f r).slots.size = r.slots.size)
    (fixed : ∀ r, (f r).writeIndex = r.writeIndex) :
    s.Routine (· = h) (s.modifyHeldQueue h (·.modifyRing f)) := by
  rw [modifyHeldQueue, Directory.modifyHeld_of_live live]
  exact s.routine_modifyRing h sized fixed

/-- The packet of the last index is consumed, but no index is next. -/
theorem consume_of_last {index : UInt64} (last : index.toNat + 1 = 2 ^ 64) (s : Session) (q : Queue)
    (word : UInt32) : s.consume q index word =
      (.ofWord q.ring index word, .overflowed,
        (complete (PacketView.ofWord q.ring index word).completion s).2.modifyHeldQueue q.handle
          (·.modifyRing (·.retire index))) := by
  have none : Word.add? index 1 = none := if_neg (not_lt.mpr last.ge)
  rw [consume, none]

/-- Consuming a packet counts its completion signal down, if that can be done, gives its slot back,
and moves the read index on. -/
theorem consume_of_fits {index : UInt64} (fits : index.toNat + 1 < 2 ^ 64) (s : Session) (q : Queue)
    (word : UInt32) : s.consume q index word =
      (.ofWord q.ring index word,
        match (complete (PacketView.ofWord q.ring index word).completion s).1 with
          | .ok () => .completed
          | .error cause => .failed cause,
        ((complete (PacketView.ofWord q.ring index word).completion s).2.modifyHeldQueue q.handle
          (·.modifyRing (·.retire index))).modifyHeldQueue q.handle
            (·.modifyRing (·.setReadIndex (index + 1)))) := by
  have next : Word.add? index 1 = some (index + 1) := if_pos fits
  rw [consume, next]
  rcases complete _ s with ⟨_ | _, m⟩ <;> rfl

theorem routine_consume {q : Queue} (live : s.queues.get? q.handle = some q) (index : UInt64)
    (word : UInt32) : s.Routine (· = q.handle) (s.consume q index word).2.2 := by
  have counted : s.Routine (· = q.handle) _ :=
    keeps_complete (PacketView.ofWord q.ring index word).completion s
  have kept := (keeps_complete (PacketView.ofWord q.ring index word).completion s).sameQueues.queues
  have still :
      (complete (PacketView.ofWord q.ring index word).completion s).2.queues.get? q.handle =
        some q := by
    rw [kept]
    exact live
  have retired := counted.trans (routine_modifyHeldRing still (f := (·.retire index))
    (fun r => r.size_modifySlot index _) fun _ => rfl)
  rcases Nat.lt_or_ge (index.toNat + 1) (2 ^ 64) with fits | beyond
  · rw [consume_of_fits fits]
    refine retired.trans (routine_modifyHeldRing (q := q.modifyRing (·.retire index)) ?_
      (f := (·.setReadIndex (index + 1))) (fun _ => rfl) fun _ => rfl)
    rw [modifyHeldQueue, Directory.get?_modifyHeld, if_pos rfl, still, Option.map_some]
  · rw [consume_of_last (Nat.le_antisymm index.toNat_lt beyond)]
    exact retired

theorem keeps_consumer {R : Session → Session → Prop} [IsPreorder Session R] (h : Handle) :
    Keeps R (consumer h) :=
  (keeps_queue h).bind fun _ => keeps_require _ _

end Session

end Accelerator
