import Accelerator.Session.Allocations
import Accelerator.Session.Signals

/-!
# The life of queues

Making queues, ending reservations, and destroying them. A hardware queue takes one of the places
that its agent has for queues, and gets a doorbell of its own; a soft queue takes one of the
places that the session has for soft queues, memory of a region for its ring, and a doorbell that
the application made. Destroying a queue gives back all that it took.

A hardware queue of an agent that runs kernels needs a thread for its command processor, and the
host may have none. By then the queue has been made, so it is withdrawn: it gives back all that it
took, but the handles and the number that it had are not issued again.

## Main definitions

* `QueueOptions`: what may be chosen for a hardware queue.
* `Session.tearDown`: what a queue gives back.
* `Session.createQueue`, `Session.createSoftQueue`: the checks in order, then the queue.
* `Session.withdrawQueue`: a queue that was made in vain.
* `Session.inactivateQueue`, `Session.destroyQueue`.
* `Session.queue`, `Session.activeQueue`: the checks of operations on a queue.
* `Session.shutDown`: destroying everything.
-/

namespace Accelerator

/-- What may be chosen for a hardware queue. -/
structure QueueOptions where
  privateSegmentSize : UInt32
  groupSegmentSize : UInt32
  /-- The application wants to be told of packets that fail. -/
  notifies : Bool
  deriving DecidableEq, Repr, Inhabited

/-- The options as shown in messages. -/
def QueueOptions.describe (o : QueueOptions) : String :=
  Text.record "QueueOptions"
    [("private_segment_size", toString o.privateSegmentSize.toNat),
      ("group_segment_size", toString o.groupSegmentSize.toNat),
      ("error_callback", if o.notifies then "true" else "false")] false

namespace Session

open Accelerator.Action

/-! ### Finding queues -/

/-- The queue of a handle. -/
def queue (h : Handle) : Action Queue := do
  ensureOpen
  demand ((← session).queues.get? h) (.invalidQueue h)

/-- The queue of a handle, if it accepts reservations. -/
def activeQueue (h : Handle) : Action Queue := do
  let q ← queue h
  require q.isActive (.invalidQueue h)
  return q

/-- The queue of a handle as whoever held on to it sees it, destroyed or not. -/
def heldQueue? (s : Session) (h : Handle) : Option Queue :=
  s.queues.held? h

/-! ### Giving back -/

/-- Gives back what a destroyed queue had taken: its place, its own doorbell, and the memory of
its ring. -/
def tearDown (s : Session) (q : Queue) : Session :=
  let s := match q.agent with
    | some a =>
      let s := s.modifyAgent a (·.dropQueue)
      match s.signals.remove q.doorbell id with
      | some (_, signals) => { s with signals }
      | none => s
    | none => { s with softQueues := s.softQueues - 1 }
  match q.ringAllocation with
  | none => s
  | some address => (freeBlock address .queueRing s).2

/-! ### Making queues -/

/-- Puts a queue at the next handle of queues, with the next number. -/
def insertQueue (make : Handle → UInt64 → Queue) : Action Queue := do
  let s ← session
  let q := make s.queues.nextHandle s.nextQueueId
  change fun s => { s with queues := s.queues.insert q, nextQueueId := s.nextQueueId + 1 }
  return q

/-- The value that the doorbell of a hardware queue has at first, below every index. -/
def idleDoorbell : Int64 := -1

/-- Puts a hardware queue at a place of its agent, with an empty ring and a doorbell. Its command
processor is ready, but has no thread yet. -/
def placeQueue (agentHandle : Handle) (size : UInt32) (type : QueueType) (options : QueueOptions) :
    Action Queue := do
  let a ← agent agentHandle
  require size.toNat.isPowerOfTwo (.argument (.sizeNotPowerOfTwo size))
  require (a.info.queueMinSize ≤ size && size ≤ a.info.queueMaxSize)
    (.argument (.sizeOutOfRange size a.info.queueMinSize a.info.queueMaxSize a.info.name))
  require a.hostsQueues (.queue (.noQueues a.info.name))
  require (a.info.queueType.supports type) (.queue (.unsupported a.info.name type))
  require a.hasRoom (.queue (.agentFull a.info.name a.info.queueMaxCount))
  change fun s => s.modifyAgent a.handle (·.addQueue)
  match PacketRing.allocate? size (← session).memory.host with
  | none =>
    change fun s => s.modifyAgent a.handle (·.dropQueue)
    refuse (.queue (.ringMemory size))
  | some (ring, base, host) =>
    change fun s => { s with memory := { s.memory with host } }
    let doorbell ← createSignal idleDoorbell 0 []
    insertQueue fun h id =>
      { handle := h, id, ring, baseAddress := base, type
        features := a.info.features, agent := some a.handle, doorbell, state := .active
        privateSegmentSize := options.privateSegmentSize
        groupSegmentSize := options.groupSegmentSize, notifies := options.notifies
        ringAllocation := none
        processor :=
          if a.info.features.contains .kernelDispatch then some .start else none }

/-- The session without a queue that was made in vain, which has given back what it had taken. -/
def withdrawQueue (s : Session) (q : Queue) : Session :=
  let s := match s.queues.remove q.handle Queue.destroy with
    | some (_, queues) => { s with queues }
    | none => s
  s.tearDown q

/-- Starts the command processor of a queue that was just put in its place, if it has one. If the
host has no thread for it, the queue is withdrawn. -/
def startProcessor (q : Queue) : Action Queue := do
  match q.processor, (← session).memory.host.threadFault with
  | some _, some reason =>
    change (·.withdrawQueue q)
    refuse (.queue (.noThread reason))
  | _, _ => return q

/-- Makes a hardware queue. -/
def createQueue (agentHandle : Handle) (size : UInt32) (type : QueueType) (options : QueueOptions) :
    Action Queue := do
  startProcessor (← placeQueue agentHandle size type options)

/-- Makes a soft queue over memory of a region. -/
def createSoftQueue (regionHandle : Handle) (size : UInt32) (type : QueueType) (features : Features)
    (doorbell : Handle) : Action Queue := do
  ensureOpen
  require size.toNat.isPowerOfTwo (.argument (.sizeNotPowerOfTwo size))
  require (!doorbell.isNull) (.argument .nullDoorbell)
  require (!features.isEmpty) (.argument .noFeatures)
  let r ← region regionHandle
  let bell ← signal doorbell
  let capacity := (← session).config.softQueueCapacity
  require ((← session).softQueues < capacity) (.queue (.softQueuesFull capacity))
  change fun s => { s with softQueues := s.softQueues + 1 }
  let bytes := PacketRing.storageBytes size
  match (← session).allocateFrom r bytes (.ofNat Packet.alignment) .queueRing with
  | .error cause =>
    change fun s => { s with softQueues := s.softQueues - 1 }
    refuse (.queue (.ringSpace r.info.name size cause))
  | .ok (start, _, s) =>
    change fun _ => s
    insertQueue fun h id =>
      { handle := h, id, ring := .ofSize size, baseAddress := start, type, features
        agent := none, doorbell := bell.handle, state := .active
        privateSegmentSize := 0, groupSegmentSize := 0, notifies := false
        ringAllocation := some start, processor := none }

/-! ### Ending queues -/

/-- Ends reservations of a queue. -/
def inactivateQueue (h : Handle) : Action Unit := do
  let _ ← queue h
  change fun s => s.modifyQueue h (·.inactivate)

/-- Destroys a queue. Packets that it still holds are not consumed. -/
def destroyQueue (h : Handle) : Action Unit := do
  ensureOpen
  let (q, queues) ← demand ((← session).queues.remove h Queue.destroy) (.invalidQueue h)
  change fun s => { s with queues }.tearDown q

/-! ### Shutting down -/

/-- Takes back all memory. -/
def releaseMemory (s : Session) : Session :=
  let s := s.memory.allocations.foldl (fun s entry => s.releaseAllocation entry.2) s
  { s with memory := s.memory.releaseAll }

/-- Destroys everything and ends the session. -/
def shutDown : Action Unit := do
  ensureOpen
  change fun s =>
    let queues := s.queues.values
    let s := queues.foldl tearDown { s with queues := s.queues.drain Queue.destroy }
    { s with
      signals := s.signals.drain id
      executables := s.executables.drain id
      kernels := [] }.releaseMemory
  change fun s => { s with isOpen := false }

end Session

end Accelerator
