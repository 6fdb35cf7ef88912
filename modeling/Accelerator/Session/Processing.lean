import Accelerator.Kernel.Dispatch
import Accelerator.Session.Executables
import Accelerator.Session.Queues

/-!
# Command processors

The command processor of a hardware queue consumes its packets in the order of their indices. An
unpublished slot holds it up even if later slots are published. A kernel dispatch is run at once, a
barrier holds the processor until its signals allow it to go on. When the work of a packet is done,
its completion signal is counted down, its slot is given back, and the read index moves on; this is
a step of its own, and others may come between it and the work.

A packet that fails stays in its slot: the queue becomes inactive, the application is told, and the
processor stops. A processor that finds nothing published looks at the slot again and again. But it
stops if the queue is not active any more, or if its doorbell is gone. It sees to that in a step of
its own, and does not look at the slot once more before it stops.

## Main definitions

* `Session.examine`: what the packet at the processor's index comes to.
* `Session.stepProcessor?`: one step of one processor, if it has anything to do.
* `Session.isAtRest`: a processor has nothing to do, or only keeps looking.
* `Session.settle`: all processors run as far as they can.
-/

namespace Accelerator

/-- What a published packet comes to when a processor examines it. -/
inductive Examined where
  /-- Its work is done; the signal to count down, if any. -/
  | done (completion : Option Handle)
  | held (barrier : PendingBarrier)
  | failed (cause : Fault)
  /-- A product of sizes does not fit its word. -/
  | crashed
  deriving Inhabited

namespace Session

/-! ### Examining packets -/

/-- The signal of a handle in a packet; the handle 0 stands for none. -/
def packetSignal (s : Session) (raw : UInt64) : Except Fault (Option Handle) :=
  if raw = 0 then .ok none
  else if s.signals.isLive ⟨raw⟩ then .ok (some ⟨raw⟩)
  else .error (.invalidSignal ⟨raw⟩)

/-- Examines a barrier: the signals that it names must be live. -/
def examineBarrier (s : Session) (b : Barrier) (all : Bool) : Examined :=
  let resolved : Except Fault PendingBarrier := do
    let completion ← s.packetSignal b.completionSignal
    let dependencies ← b.dependencies.toList.mapM s.packetSignal
    return ⟨dependencies.filterMap id, all, completion⟩
  match resolved with
  | .ok pending => .held pending
  | .error cause => .failed cause

/-- Runs a launch; what kernels report is added to what was reported before. -/
def runLaunch (s : Session) (l : Launch) : Bool × Session :=
  let after := l.run s.memory s.reports
  (after.panicked, { s with memory := after.memory, reports := after.reports })

/-- Examines a kernel dispatch, and runs its kernel. -/
def examineDispatch (s : Session) (q : Queue) (index : UInt64) (p : KernelDispatch)
    (setup : UInt16) : Examined × Session :=
  match s.packetSignal p.completionSignal with
  | .error cause => (.failed cause, s)
  | .ok completion =>
    match (q.agent.bind s.agents.get?).map fun a => p.plan setup a.info s.kernels s.memory with
    | none | some .empty => (.done completion, s)
    | some (.refused cause) => (.failed (.packet index cause), s)
    | some .overflow => (.crashed, s)
    | some (.launch l) =>
      match s.runLaunch l with
      | (true, s) => (.failed (.packet index (.kernelPanicked l.kernel.name)), s)
      | (false, s) => (.done completion, s)

/-- Examines the published packet of an index, given the header word seen there. -/
def examine (s : Session) (q : Queue) (index : UInt64) (word : UInt32) : Examined × Session :=
  let header := Header.ofWord word
  match header.type? with
  | none => (.failed (.packet index (.unknownType header.typeCode)), s)
  | some type =>
    match (Layout.ofType? type).map (q.ring.read index).body with
    | some (.kernel p) => s.examineDispatch q index p (companionOfWord word)
    | some (.barrierAnd b) => (s.examineBarrier b true, s)
    | some (.barrierOr b) => (s.examineBarrier b false, s)
    | some (.agent _) | none => (.failed (.packet index (.unsupportedType type)), s)

/-! ### Going on -/

/-- The values of signals in order; all must be live. -/
def signalValues (s : Session) : List Handle → Except Fault (List Int64)
  | [] => .ok []
  | h :: rest =>
    match s.signals.get? h with
    | none => .error (.invalidSignal h)
    | some signal => (s.signalValues rest).map (signal.value :: ·)

/-- A barrier lets the processor go on: all of its signals read 0, or one of them, or there are
none. -/
def barrierOpens (s : Session) (b : PendingBarrier) : Except Fault Bool :=
  (s.signalValues b.dependencies).map fun values =>
    if b.all then values.all (· == 0) else values.isEmpty || values.any (· == 0)

/-- The processor of a queue does something else. -/
def setProcessor (s : Session) (q : Queue) (p : Processor) : Session :=
  s.modifyQueue q.handle (·.setProcessor p)

/-- A packet failed: the queue becomes inactive, the application is told if it wants to be, and the
processor stops. -/
def failPacket (s : Session) (q : Queue) (p : Processor) (cause : Fault) : Session :=
  let s := (s.modifyQueue q.handle (·.inactivate)).setProcessor q { p with state := .stopped }
  if q.notifies then { s with notices := s.notices ++ [⟨q.handle, cause⟩] } else s

/-- A packet is complete: its slot is given back and the processor looks at the next. -/
def advance (s : Session) (q : Queue) (p : Processor) : Session :=
  let s := s.modifyQueue q.handle (·.modifyRing (·.retire p.index))
  match Word.add? p.index 1 with
  | none => s.setProcessor q { p with state := .crashed }
  | some next =>
    (s.modifyQueue q.handle (·.modifyRing (·.setReadIndex next))).setProcessor q ⟨next, .ready⟩

/-- The work of a packet is done: its completion signal is counted down, which must still be
live. -/
def finishPacket (s : Session) (q : Queue) (p : Processor) (completion : Option Handle) : Session :=
  match completion with
  | none => s.advance q p
  | some h =>
    if s.signals.isLive h then
      (s.modifySignal h fun signal =>
        signal.setValue ((Signal.Update.subtract 1).apply signal.value)).advance q p
    else s.failPacket q p (.invalidSignal h)

/-- One step of the command processor of a queue; nothing if it has nothing to do. Looking at a slot
and seeing to the state of the queue are two steps: whatever happens between them, the processor has
already found the slot unpublished. -/
def stepProcessor? (s : Session) (q : Queue) : Option Session :=
  match q.processor with
  | none => none
  | some p =>
    match p.state with
    | .stopped | .crashed => none
    | .held b =>
      match s.barrierOpens b with
      | .error cause => some (s.failPacket q p cause)
      | .ok true => some (s.setProcessor q { p with state := .finishing b.completion })
      | .ok false => none
    | .finishing completion => some (s.finishPacket q p completion)
    | .idle =>
      if q.isActive && s.signals.isLive q.doorbell then
        some (s.setProcessor q { p with state := .ready })
      else some (s.setProcessor q { p with state := .stopped })
    | .ready =>
      let word := q.ring.word p.index
      if (Header.ofWord word).isUnpublished then
        some (s.setProcessor q { p with state := .idle })
      else match s.examine q p.index word with
        | (.done completion, s) =>
          some (s.setProcessor q { p with state := .finishing completion })
        | (.held b, s) => some (s.setProcessor q { p with state := .held b })
        | (.failed cause, s) => some (s.failPacket q p cause)
        | (.crashed, s) => some (s.setProcessor q { p with state := .crashed })

/-! ### All processors -/

/-- Nothing comes of the command processor of a queue for now: there is none, or it has stopped, or
a barrier holds it, or it only keeps looking at a slot. -/
def isAtRest (s : Session) (q : Queue) : Bool :=
  match q.processor with
  | none => true
  | some p =>
    match p.state with
    | .stopped | .crashed => true
    | .idle | .finishing _ => false
    | .held b =>
      match s.barrierOpens b with
      | .ok false => true
      | _ => false
    | .ready =>
      (q.ring.header p.index).isUnpublished && q.isActive && s.signals.isLive q.doorbell

/-- One step of the first processor that is not at rest. -/
def step? (s : Session) : Option Session :=
  (s.queues.values.find? fun q => !s.isAtRest q).bind s.stepProcessor?

/-- At most so many steps of processors. -/
def settleWithin : Nat → Session → Session
  | 0, s => s
  | fuel + 1, s =>
    match s.step? with
    | none => s
    | some next => settleWithin fuel next

/-- A bound on the steps of processors until all are at rest: a packet takes three steps at most, a
ring has no more published packets than slots, and there may be one step before the first packet and
two after the last. -/
def stepBound (s : Session) : Nat :=
  s.queues.values.foldr (fun q bound => 3 * q.ring.slots.size + 3 + bound) 0

/-- All processors run as far as they can. -/
def settle (s : Session) : Session :=
  settleWithin s.stepBound s

end Session

end Accelerator
