import Accelerator.Fault
import Accelerator.Flags
import Accelerator.Packet.Ring

/-!
# Queues

A queue is a ring of packets with a doorbell, a signal that producers ring after they have
published a packet. The queue of an agent is a *hardware* queue: a command processor consumes it,
if the agent runs kernels. A *soft* queue has no agent; the application consumes it, and its ring
lies in memory of a region.

## Main definitions

* `Processor`: how far a command processor has come, and what it is doing.
* `Queue`, and `Queue.isSoft`, `Queue.describe`.
* `Queue.inactivate`, `Queue.destroy`: the two steps of a queue's life.
* `PacketView`: a published packet as a consumer sees it.
-/

namespace Accelerator

/-! ### Command processors -/

/-- A barrier that a command processor has examined: the signals it depends on, whether all of
them or one of them must read 0, and the signal to count down at its completion. -/
structure PendingBarrier where
  dependencies : List Handle
  all : Bool
  completion : Option Handle
  deriving DecidableEq, Repr, Inhabited

/-- What a command processor is doing. -/
inductive ProcessorState where
  /-- Looking at the slot of its index. -/
  | ready
  /-- Having found nothing published there, and about to see whether to look again. -/
  | idle
  /-- Waiting for the signals of the barrier at its index. -/
  | held (barrier : PendingBarrier)
  /-- Done with the work of the packet at its index, whose completion signal, if any, is still to be
  counted down. -/
  | finishing (completion : Option Handle)
  /-- Nothing any more. -/
  | stopped
  /-- Nothing any more, because a product of sizes did not fit its word. -/
  | crashed
  deriving DecidableEq, Repr, Inhabited

/-- The consumer of a hardware queue. -/
structure Processor where
  /-- The index of the next packet. -/
  index : UInt64
  state : ProcessorState
  deriving DecidableEq, Repr, Inhabited

/-- A command processor that has not consumed anything. -/
def Processor.start : Processor := ⟨0, .ready⟩

/-! ### Queues -/

/-- A packet ring with its doorbell. -/
structure Queue where
  handle : Handle
  id : UInt64
  ring : PacketRing
  /-- Address of the ring's first slot. -/
  baseAddress : UInt64
  type : QueueType
  features : Features
  /-- The agent that hosts the queue; none for a soft queue. -/
  agent : Option Handle
  doorbell : Handle
  state : QueueState
  privateSegmentSize : UInt32
  groupSegmentSize : UInt32
  /-- The application wants to be told of packets that fail. -/
  notifies : Bool
  /-- The allocation that holds the ring of a soft queue. -/
  ringAllocation : Option UInt64
  processor : Option Processor
  deriving Inhabited

namespace Queue

/-- The application consumes the queue. -/
def isSoft (q : Queue) : Bool :=
  q.agent.isNone

/-- Number of packet slots. -/
def size (q : Queue) : UInt32 :=
  q.ring.size.toUInt32

/-- New reservations are accepted. -/
def isActive (q : Queue) : Bool :=
  q.state == .active

/-- The queue with its ring changed. -/
def modifyRing (q : Queue) (f : PacketRing → PacketRing) : Queue :=
  { q with ring := f q.ring }

/-- The queue with its command processor doing something else. -/
def setProcessor (q : Queue) (p : Processor) : Queue :=
  { q with processor := some p }

/-- The queue without new reservations; it never becomes active again. -/
def inactivate (q : Queue) : Queue :=
  if q.isActive then { q with state := .inactive } else q

/-- The queue after its destruction, without a command processor. -/
def destroy (q : Queue) : Queue :=
  { q with state := .destroyed, processor := none }

/-- The queue as shown in messages. -/
def describe (q : Queue) : String :=
  Text.record "Queue"
    [("handle", q.handle.describe), ("id", toString q.id.toNat),
      ("state", Enumerated.name q.state), ("type", q.type.title), ("ring", q.ring.describe)] true

end Queue

/-! ### Packets as consumers see them -/

/-- A published packet, taken out of its slot. -/
structure PacketView where
  index : UInt64
  header : Header
  companion : UInt16
  slot : Slot
  deriving Inhabited

namespace PacketView

/-- The published packet in the slot of an index, given the header word seen there. -/
def ofWord (r : PacketRing) (index : UInt64) (word : UInt32) : PacketView :=
  ⟨index, .ofWord word, companionOfWord word, r.read index⟩

/-- The packet, read in the layout of its type; packets of other types have none. -/
def body? (v : PacketView) : Option Body :=
  (v.header.type?.bind Layout.ofType?).map v.slot.body

/-- The handle of the completion signal; 0 for none. -/
def completion (v : PacketView) : UInt64 :=
  v.slot.completionSignal

end PacketView

end Accelerator
