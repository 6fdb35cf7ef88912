import Accelerator.Session.Queues

/-!
# Producers

How packets get into a queue. A producer reserves slots by advancing the write index, waits until
the slots are free, fills them, publishes them one by one, and rings the doorbell. Each step is an
action of its own; `Session.submit` is all of them for one packet.

A reservation is accepted by an active queue only. The later steps need a queue that has not been
destroyed, so what has been reserved can still be published.

## Main definitions

* `Session.loadReadIndex` and the other actions on indices.
* `Session.reserve`, `Session.resumeReserve`: slots, as soon as they are free.
* `Session.writePacket`, `Session.publish`, `Session.ringDoorbell`: the steps for one slot.
* `Session.submit`, `Session.dispatch`, `Session.barrierAnd`: all steps for one packet.
-/

namespace Accelerator

/-- Slots that have been reserved but are not all free yet. -/
structure Reservation where
  queue : Handle
  /-- The first index reserved. -/
  first : UInt64
  /-- The last index reserved. -/
  last : UInt64
  deriving DecidableEq, Repr, Inhabited

/-- A packet with the header word that it will be published with. -/
structure Parcel where
  packet : Slot
  header : Header
  companion : UInt16
  deriving Inhabited

/-- A packet that waits for its slot. -/
structure Submission where
  reservation : Reservation
  parcel : Parcel
  deriving Inhabited

namespace Session

open Accelerator.Action

/-- Takes a step in the ring of a queue that was checked before, whatever has become of the queue
since; shows the ring as it was. -/
def stepRing (h : Handle) (op : RingOp) : Action PacketRing := do
  let q ← demand ((← session).heldQueue? h) (.invalidQueue h)
  change fun s => s.modifyHeldQueue h (·.modifyRing op.apply)
  return q.ring

/-! ### Indices -/

/-- The index of the next packet to consume. -/
def loadReadIndex (h : Handle) (order : MemoryOrder) : Action UInt64 := do
  let q ← queue h
  let _ ← order.forLoad
  return q.ring.readIndex

/-- Tells how far the ring has been consumed. -/
def storeReadIndex (h : Handle) (value : UInt64) (order : MemoryOrder) : Action Unit := do
  let _ ← queue h
  let _ ← order.forStore
  discard (stepRing h (.setReadIndex value))

/-- The index of the next slot to reserve. -/
def loadWriteIndex (h : Handle) (order : MemoryOrder) : Action UInt64 := do
  let q ← queue h
  let _ ← order.forLoad
  return q.ring.writeIndex

/-- Sets the index of the next slot to reserve. -/
def storeWriteIndex (h : Handle) (value : UInt64) (order : MemoryOrder) : Action Unit := do
  let _ ← activeQueue h
  let _ ← order.forStore
  discard (stepRing h (.setWriteIndex value))

/-- Sets the write index if it is the expected one; shows what it was. -/
def compareAndSwapWriteIndex (h : Handle) (expected value : UInt64) (_order : MemoryOrder) :
    Action UInt64 := do
  let _ ← activeQueue h
  return (← stepRing h (.compareAndSwapWriteIndex expected value)).writeIndex

/-- Advances the write index; shows what it was, which is the first index reserved. -/
def addWriteIndex (h : Handle) (count : UInt64) (_order : MemoryOrder) : Action UInt64 := do
  let _ ← activeQueue h
  return (← stepRing h (.addWriteIndex count)).writeIndex

/-! ### Reserving -/

/-- Goes on waiting for reserved slots. As long as they are not free, the queue must be active. -/
def resumeReserve (r : Reservation) : Action (Progress Reservation UInt64) := do
  let q ← demand ((← session).heldQueue? r.queue) (.invalidQueue r.queue)
  if q.ring.isFullAt r.last then
    require q.isActive (.invalidQueue r.queue)
    return .waiting r
  else return .done r.first

/-- Reserves slots and waits until all of them are free. -/
def reserve (h : Handle) (count : UInt64) : Action (Progress Reservation UInt64) := do
  let q ← demand ((← session).heldQueue? h) (.invalidQueue h)
  require (count != 0 && count ≤ q.size.toUInt64) (.argument (.reservation count q.size))
  let first ← addWriteIndex h count .relaxed
  match Word.add? first count with
  | none => return .overflowed
  | some limit => resumeReserve ⟨h, first, limit - 1⟩

/-! ### Filling and publishing -/

/-- Fills the slot of an index with a packet, all but its header word. -/
def writePacket (h : Handle) (index : UInt64) (packet : Slot) : Action Unit := do
  let _ ← queue h
  discard (stepRing h (.write index packet))

/-- Hands the slot of an index to the consumer. -/
def publish (h : Handle) (index : UInt64) (header : Header) (companion : UInt16) : Action Unit := do
  let _ ← queue h
  discard (stepRing h (.publish index header companion))

/-- Stores an index in the doorbell. -/
def ringDoorbell (h : Handle) (index : UInt64) : Action Unit := do
  let q ← queue h
  storeSignal q.doorbell index.toInt64 .release

/-! ### One packet -/

/-- Fills, publishes and rings for the slot of an index that is free. -/
def deliver (h : Handle) (index : UInt64) (parcel : Parcel) : Action UInt64 := do
  writePacket h index parcel.packet
  publish h index parcel.header parcel.companion
  ringDoorbell h index
  return index

/-- Delivers a packet as soon as its slot is free. -/
def deliverWhenFree (h : Handle) (parcel : Parcel) :
    Progress Reservation UInt64 → Action (Progress Submission UInt64)
  | .done index => do return .done (← deliver h index parcel)
  | .waiting reservation => return .waiting ⟨reservation, parcel⟩
  | .overflowed => return .overflowed

/-- Goes on with a packet that waits for its slot. -/
def resumeSubmit (w : Submission) : Action (Progress Submission UInt64) := do
  deliverWhenFree w.reservation.queue w.parcel (← resumeReserve w.reservation)

/-- Submits one packet; the answer is its index. -/
def submit (h : Handle) (parcel : Parcel) : Action (Progress Submission UInt64) := do
  deliverWhenFree h parcel (← reserve h 1)

/-- Submits a kernel dispatch. -/
def dispatch (h : Handle) (packet : KernelDispatch) : Action (Progress Submission UInt64) :=
  submit h ⟨.ofBody (.kernel packet), .ofType .kernelDispatch, packet.setup⟩

/-- Submits a barrier that completes once all of some signals read 0. -/
def barrierAnd (h : Handle) (dependencies : List Handle) (completion : Option Handle) :
    Action (Progress Submission UInt64) := do
  require (dependencies.length ≤ Barrier.dependencyCount)
    (.argument (.dependencies dependencies.length))
  let packet : Barrier :=
    { header := 0, reserved0 := 0, reserved1 := 0
      dependencies := .ofFn fun i => (dependencies[i.val]?).elim 0 (·.raw)
      reserved2 := 0, completionSignal := (completion.getD .null).raw }
  submit h
    ⟨.ofBody (.barrierAnd packet), (Header.ofType .barrierAnd).withBarrier true, 0⟩

end Session

end Accelerator
