import Accelerator.Session.Producer

/-!
# Consumers of soft queues

The application consumes a soft queue itself. Each packet is handed to a handler; then its
completion signal is counted down, its slot is given back, and the read index moves on. The last
two happen even if the signal cannot be counted down, so no packet is handled twice.

A handler is told of each packet, and may end the processing. Here it is a function of the packets
that it has been given so far, the last of them in front.

A consumer that processes a queue goes round in a loop. It sees which packet is next, looks at the
slot of that packet, and handles it if it has been published. If not, it sees whether the queue is
still active and has its doorbell, waits a while, and looks at the slot again. Others may do
anything between these steps, so each of them is one of its own. In particular, a consumer that has
found nothing published goes by that when it sees to the queue afterwards.

## Main definitions

* `Consumed`: how the completion of a packet went.
* `Session.consumer`: the check that the application may consume a queue.
* `Session.consume`, `Session.tryNext`: one packet.
* `Processing`, `Session.stepProcess`: the places in the loop of a consumer, and a step from one to
  the next; `Processed` is how the loop ends.
* `Session.process`: a loop that nobody else comes in the way of, up to where it would wait.
-/

namespace Accelerator

/-- How the completion of a packet went. -/
inductive Consumed where
  | completed
  /-- The completion signal could not be counted down. -/
  | failed (cause : Fault)
  /-- The next index does not fit 64 bits. -/
  | overflowed
  deriving DecidableEq, Repr, Inhabited

/-- How processing came to an end. -/
inductive Processed where
  /-- The handler ended it. -/
  | exited
  | failed (cause : Fault)
  /-- The next index does not fit 64 bits. -/
  | overflowed
  deriving DecidableEq, Repr, Inhabited

/-- Where a consumer is that processes a queue. -/
inductive Processing where
  /-- About to see which packet is next. -/
  | next
  /-- Looking at the slot of an index. -/
  | looking (index : UInt64)
  /-- Having found nothing published there, and about to see whether to look again. -/
  | idle (index : UInt64)
  | ended (how : Processed)
  deriving DecidableEq, Repr, Inhabited

/-- A consumer has neither come to the end of its loop nor found that it may have to wait. -/
def Processing.isUnderway : Processing → Bool
  | next | looking _ => true
  | idle _ | ended _ => false

/-- The loop of a consumer has ended. -/
def Processing.hasEnded : Processing → Bool
  | ended _ => true
  | next | looking _ | idle _ => false

/-- Where a packet leads a consumer whose handler ends the loop with it or does not. -/
def Consumed.leadsTo (ended : Bool) : Consumed → Processing
  | completed => if ended then .ended .exited else .next
  | failed cause => .ended (.failed cause)
  | overflowed => .ended .overflowed

namespace Session

open Accelerator.Action

/-- The application may consume a queue: it is a soft queue. -/
def consumer (h : Handle) : Action Unit := do
  let q ← queue h
  require q.isSoft (.argument (.ownConsumer q.id))

/-- Counts a completion signal down; the handle 0 stands for none. -/
def complete (completion : UInt64) : Action Unit := do
  if completion = 0 then return ()
  else
    let _ ← demand ((← session).signals.get? ⟨completion⟩) (.invalidSignal ⟨completion⟩)
    discard (updateSignal ⟨completion⟩ (.subtract 1) .release)

/-- Consumes the published packet of an index, given the header word seen there. The queue may have
been destroyed while its consumer was waiting for the packet. -/
def consume (s : Session) (q : Queue) (index : UInt64) (word : UInt32) :
    PacketView × Consumed × Session :=
  let view := PacketView.ofWord q.ring index word
  let (completed, s) := complete view.completion s
  let s := s.modifyHeldQueue q.handle (·.modifyRing (·.retire index))
  match Word.add? index 1 with
  | none => (view, .overflowed, s)
  | some next =>
    let s := s.modifyHeldQueue q.handle (·.modifyRing (·.setReadIndex next))
    match completed with
    | .ok () => (view, .completed, s)
    | .error cause => (view, .failed cause, s)

/-- Consumes the next packet if it has been published. -/
def tryNext (h : Handle) : Action (Option (PacketView × Consumed)) := do
  let index ← loadReadIndex h .relaxed
  let q ← queue h
  let word := q.ring.word index
  if (Header.ofWord word).isUnpublished then return none
  else
    let (view, consumed, s) := (← session).consume q index word
    change fun _ => s
    return some (view, consumed)

/-- A consumer waits for the doorbell, as long as the queue is active and the doorbell alive. -/
def awaitDoorbell (h : Handle) : Action Unit := do
  let q ← demand ((← session).heldQueue? h) (.invalidQueue h)
  require q.isActive (.invalidQueue h)
  discard (signal q.doorbell)

/-- Handles the packet of an index if it has been published. The packet is added in front of those
that were handled before. -/
def lookAt (h : Handle) (ends : List PacketView → Bool) (index : UInt64) (seen : List PacketView)
    (s : Session) : Processing × List PacketView × Session :=
  match s.heldQueue? h with
  | none => (.ended (.failed (.invalidQueue h)), seen, s)
  | some q =>
    let word := q.ring.word index
    if (Header.ofWord word).isUnpublished then (.idle index, seen, s)
    else
      let (view, consumed, s) := s.consume q index word
      (consumed.leadsTo (ends (view :: seen)), view :: seen, s)

/-- One step of a consumer that processes a queue, with the packets that were handled before. -/
def stepProcess (h : Handle) (ends : List PacketView → Bool) :
    Processing × List PacketView × Session → Processing × List PacketView × Session
  | (.next, seen, s) =>
    match loadReadIndex h .relaxed s with
    | (.error cause, s) => (.ended (.failed cause), seen, s)
    | (.ok index, s) => (.looking index, seen, s)
  | (.looking index, seen, s) => s.lookAt h ends index seen
  | (.idle index, seen, s) =>
    match awaitDoorbell h s with
    | (.error cause, s) => (.ended (.failed cause), seen, s)
    | (.ok (), s) => (.looking index, seen, s)
  | (.ended how, seen, s) => (.ended how, seen, s)

/-- Goes on until nothing is published or the loop ends, for at most so many steps. -/
def handlePackets (h : Handle) (ends : List PacketView → Bool) :
    Nat → Processing × List PacketView × Session → Processing × List PacketView × Session
  | 0, state => state
  | fuel + 1, state =>
    if state.1.isUnderway then handlePackets h ends fuel (stepProcess h ends state) else state

/-- Handles packets until the handler ends it, something fails, or a packet has not been published.
A ring has no more published packets than slots, and each is handled once in two steps, so this
bounds the steps. -/
def process (h : Handle) (ends : List PacketView → Bool) (s : Session) :
    Processing × List PacketView × Session :=
  let slots := ((s.heldQueue? h).map fun q => q.ring.slots.size).getD 0
  handlePackets h ends (2 * slots + 2) (.next, [], s)

end Session

end Accelerator
