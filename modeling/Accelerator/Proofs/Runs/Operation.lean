import Accelerator.Proofs.Processor.Moves
import Accelerator.Proofs.Runs.Placement

/-!
# Runs of a session

A session changes when the application does something, and when a command processor takes a step;
the two may alternate in any way. The operations of the application that change a session are
listed here, each with the queues that it touches. A call that has to wait is made again later, so
it is an operation each time.

The destruction of a queue takes effect when its command processor has left the packet that it was
working on. A processor that has done the work of a packet counts its completion signal down before
that.

Where blocks of memory lie, and whether there is a thread for a command processor, is up to the
host. A run may go on with another host at any time, so that what holds of all runs does not depend
on what a host does.

## What a step asks for

Two things are asked of a step of the application. There is room for another object of each kind,
since no more than `2 ^ 32` slots can be numbered; and the operation does not destroy a queue whose
processor has a completion signal to count down. The second is how the program behaves: destroying a
queue waits for the thread of its processor, which counts the signal down before it looks whether it
is to stop.

Reading is no operation. What only looks at the session leaves it as it is, and steps that change
nothing would add nothing to a run.

## Main definitions

* `Operation`, with `Operation.perform` and `Operation.Touches`: what the application does.
* `Turn`, `Session.Step`: what happens next in a session.
* `Session.Reachable`: the sessions that runs lead to, whatever the host does.
* `Session.WellFormed`: queues and agents know their handles.

## Main results

* `Session.changes_perform`, `Session.Step.changes`: an operation, and a step, touch no other
  queues.
* `Session.Reachable.wellFormed`: the sessions of runs are well-formed.
-/

namespace Accelerator

/-- What the application does that may change a session. -/
inductive Operation where
  | createSignal (initial : Int64) (count : UInt32) (consumers : List Handle)
  | destroySignal (h : Handle)
  | storeSignal (h : Handle) (value : Int64) (order : MemoryOrder)
  | updateSignal (h : Handle) (update : Signal.Update) (order : MemoryOrder)
  | allocate (region : Handle) (size : UInt64)
  | free (address : UInt64)
  | assign (address : UInt64) (agent : Handle) (access : AccessPermission)
  | takeHostBlock (size : Nat)
  | register (address size : UInt64)
  | deregister (address size : UInt64)
  | writeMemory (address : UInt64) (bs : List UInt8)
  | copyMemory (target source size : UInt64)
  /-- A store through the view of memory that kernels have. -/
  | store (address : UInt64) (bs : List UInt8)
  | fetchAdd (width : Nat) (address : UInt64) (amount : Nat)
  | createExecutable
  | loadCode (h agent : Handle) (code : CodeObject)
  | freezeExecutable (h : Handle)
  | destroyExecutable (h : Handle)
  | createQueue (agent : Handle) (size : UInt32) (type : QueueType) (options : QueueOptions)
  | createSoftQueue (region : Handle) (size : UInt32) (type : QueueType) (features : Features)
      (doorbell : Handle)
  | inactivateQueue (h : Handle)
  | destroyQueue (h : Handle)
  | shutDown
  | storeReadIndex (h : Handle) (value : UInt64) (order : MemoryOrder)
  | storeWriteIndex (h : Handle) (value : UInt64) (order : MemoryOrder)
  | compareAndSwapWriteIndex (h : Handle) (expected value : UInt64) (order : MemoryOrder)
  | addWriteIndex (h : Handle) (count : UInt64) (order : MemoryOrder)
  | reserve (h : Handle) (count : UInt64)
  | writePacket (h : Handle) (index : UInt64) (packet : Slot)
  | publish (h : Handle) (index : UInt64) (header : Header) (companion : UInt16)
  | ringDoorbell (h : Handle) (index : UInt64)
  /-- Submitting a packet; kernel dispatches are submitted in this way. -/
  | submit (h : Handle) (parcel : Parcel)
  | resumeSubmit (waiting : Submission)
  | barrierAnd (h : Handle) (dependencies : List Handle) (completion : Option Handle)
  | tryNext (h : Handle)
  | process (h : Handle) (ends : List PacketView → Bool)
  | advanceTo (tick : UInt64)

namespace Operation

/-- The session after an operation, whether that gave an answer or a fault. -/
def perform : Operation → Session → Session
  | createSignal initial count consumers, s => (Session.createSignal initial count consumers s).2
  | destroySignal h, s => (Session.destroySignal h s).2
  | storeSignal h value order, s => (Session.storeSignal h value order s).2
  | updateSignal h update order, s => (Session.updateSignal h update order s).2
  | allocate region size, s => (Session.allocate region size s).2
  | free address, s => (Session.free address s).2
  | assign address agent access, s => (Session.assign address agent access s).2
  | takeHostBlock size, s => ((s.hostBlock? size).map (·.2)).getD s
  | register address size, s => (Session.register address size s).2
  | deregister address size, s => (Session.deregister address size s).2
  | writeMemory address bs, s => (Session.writeMemory address bs s).2
  | copyMemory target source size, s => (Session.copyMemory target source size s).2
  | store address bs, s => { s with memory := (s.memory.writeBytes? address bs).getD s.memory }
  | fetchAdd width address amount, s =>
    { s with memory := ((s.memory.fetchAdd? width address amount).map (·.2)).getD s.memory }
  | createExecutable, s => (Session.createExecutable s).2
  | loadCode h agent code, s => (Session.loadCode h agent code s).2
  | freezeExecutable h, s => (Session.freezeExecutable h s).2
  | destroyExecutable h, s => (Session.destroyExecutable h s).2
  | createQueue agent size type options, s => (Session.createQueue agent size type options s).2
  | createSoftQueue region size type features doorbell, s =>
    (Session.createSoftQueue region size type features doorbell s).2
  | inactivateQueue h, s => (Session.inactivateQueue h s).2
  | destroyQueue h, s => (Session.destroyQueue h s).2
  | shutDown, s => (Session.shutDown s).2
  | storeReadIndex h value order, s => (Session.storeReadIndex h value order s).2
  | storeWriteIndex h value order, s => (Session.storeWriteIndex h value order s).2
  | compareAndSwapWriteIndex h expected value order, s =>
    (Session.compareAndSwapWriteIndex h expected value order s).2
  | addWriteIndex h count order, s => (Session.addWriteIndex h count order s).2
  | reserve h count, s => (Session.reserve h count s).2
  | writePacket h index packet, s => (Session.writePacket h index packet s).2
  | publish h index header companion, s => (Session.publish h index header companion s).2
  | ringDoorbell h index, s => (Session.ringDoorbell h index s).2
  | submit h parcel, s => (Session.submit h parcel s).2
  | resumeSubmit waiting, s => (Session.resumeSubmit waiting s).2
  | barrierAnd h dependencies completion, s =>
    (Session.barrierAnd h dependencies completion s).2
  -- a queue that the application may not consume has no consumer
  | tryNext h, s => ((Session.consumer h >>= fun _ => Session.tryNext h) s).2
  | process h ends, s =>
    match Session.consumer h s with
    | (.ok (), s) => (Session.process h ends s).2.2
    | (.error _, s) => s
  | advanceTo tick, s => s.advanceTo tick

/-- The queues that an operation may change. -/
def Touches : Operation → Handle → Prop
  | inactivateQueue k, h | destroyQueue k, h | storeReadIndex k _ _, h | storeWriteIndex k _ _, h
  | compareAndSwapWriteIndex k _ _ _, h | addWriteIndex k _ _, h | reserve k _, h
  | writePacket k _ _, h | publish k _ _ _, h | submit k _, h | barrierAnd k _ _, h
  | tryNext k, h | process k _, h => h = k
  | resumeSubmit waiting, h => h = waiting.reservation.queue
  | shutDown, _ => True
  | _, _ => False

/-- The operation has to do with code only. -/
def LoadsCode : Operation → Prop
  | createExecutable | loadCode _ _ _ | freezeExecutable _ | destroyExecutable _ => True
  | _ => False

/-- The operation neither makes nor destroys a signal or a queue to be counted, neither hands out
memory nor takes any back, and has nothing to do with code. -/
def IsRoutine : Operation → Prop
  | createSignal _ _ _ | allocate _ _ | free _ | assign _ _ _ | takeHostBlock _ | register _ _
  | deregister _ _ | createQueue _ _ _ _ | createSoftQueue _ _ _ _ _ | destroyQueue _ | shutDown
  | createExecutable | loadCode _ _ _ | freezeExecutable _ | destroyExecutable _ => False
  | _ => True

/-- The destruction of a queue waits for a command processor that still has to count the completion
signal of a packet down. -/
def Waits (o : Operation) (s : Session) : Prop :=
  ∃ h q index completion, s.queues.get? h = some q ∧
    q.processor = some ⟨index, .finishing completion⟩ ∧ (o = destroyQueue h ∨ o = shutDown)

end Operation

/-- Who acts next in a session. -/
inductive Turn where
  | application (o : Operation)
  | processor (h : Handle)

/-- The queues that a turn may change. -/
def Turn.Touches : Turn → Handle → Prop
  | application o, h => o.Touches h
  | processor k, h => h = k

namespace Session

open Accelerator.Action

variable {s t : Session}

/-- Another signal, queue and executable can be numbered. -/
def HasRoom (s : Session) : Prop :=
  s.signals.live.slots.size < 2 ^ 32 ∧ s.queues.live.slots.size < 2 ^ 32 ∧
    s.executables.live.slots.size < 2 ^ 32

/-- What may happen next in a session. -/
inductive Step : Turn → Session → Session → Prop where
  | application {s : Session} {o : Operation} (room : s.HasRoom) (ready : ¬ o.Waits s) :
      Step (.application o) s (o.perform s)
  | processor {s t : Session} {h : Handle} {q : Queue} (live : s.queues.get? h = some q)
      (stepped : s.stepProcessor? q = some t) : Step (.processor h) s t

/-- An operation that ends no queue waits for nothing. -/
theorem Step.lasting {o : Operation} (room : s.HasRoom)
    (lasting : (∀ h, o ≠ .destroyQueue h) ∧ o ≠ .shutDown) :
    Step (.application o) s (o.perform s) := by
  refine .application room ?_
  rintro ⟨h, -, -, -, -, -, destroys | ends⟩
  · exact lasting.1 h destroys
  · exact lasting.2 ends

/-- The session on another host. -/
def rehost (s : Session) (host : Host) : Session :=
  { s with memory := { s.memory with host } }

/-- The sessions that runs lead to from the opening of a configuration, whatever the host does. -/
inductive Reachable : Session → Prop where
  | opened {c : Config} {s : Session} (opened : openConfig c = .ok s) : Reachable s
  | rehost {s : Session} (before : Reachable s) (host : Host) : Reachable (s.rehost host)
  | step {turn : Turn} {s t : Session} (before : Reachable s) (step : Step turn s t) : Reachable t

/-- Queues and agents know their handles. -/
structure WellFormed (s : Session) : Prop where
  queues : s.queues.WellFormed Queue.handle
  agents : ∀ h a, s.agents.get? h = some a → a.handle = h

/-! ### Touching queues -/

/-- Routine touches no rings but those that the operation says. -/
theorem routine_perform (wf : s.queues.WellFormed Queue.handle) {o : Operation}
    (routine : o.IsRoutine) : s.Routine o.Touches (o.perform s) := by
  cases o with
  | destroySignal h => exact keeps_destroySignal h s
  | storeSignal h value order => exact keeps_storeSignal h value order s
  | updateSignal h update order => exact keeps_updateSignal h update order s
  | writeMemory address bs => exact keeps_writeMemory address bs s
  | copyMemory target source size => exact keeps_copyMemory target source size s
  | store address bs =>
    rw [Operation.perform]
    cases written : s.memory.writeBytes? address bs with
    | none => exact .refl s
    | some memory => exact routine_writeBytes? written
  | fetchAdd width address amount =>
    rw [Operation.perform]
    cases added : s.memory.fetchAdd? width address amount with
    | none => exact .refl s
    | some found => exact routine_fetchAdd? added
  | inactivateQueue h => exact keeps_inactivateQueue h s
  | storeReadIndex h value order => exact keeps_storeReadIndex h value order s
  | storeWriteIndex h value order => exact keeps_storeWriteIndex h value order s
  | compareAndSwapWriteIndex h expected value order =>
    exact keeps_compareAndSwapWriteIndex h expected value order s
  | addWriteIndex h count order => exact keeps_addWriteIndex h count order s
  | reserve h count => exact keeps_reserve h count s
  | writePacket h index packet => exact keeps_writePacket h index packet s
  | publish h index header companion => exact keeps_publish h index header companion s
  | ringDoorbell h index => exact keeps_ringDoorbell h index s
  | submit h parcel => exact keeps_submit h parcel s
  | resumeSubmit waiting => exact keeps_resumeSubmit waiting s
  | barrierAnd h dependencies completion => exact keeps_barrierAnd h dependencies completion s
  | tryNext h =>
    have checked := keeps_consumer (R := Eq) h s
    rw [Operation.perform, bind_apply]
    generalize consumer h s = answer at checked
    obtain ⟨_ | _, m⟩ := answer
    · obtain rfl : s = m := checked
      exact .refl s
    · obtain rfl : s = m := checked
      exact routine_tryNext wf h
  | process h ends =>
    have checked := keeps_consumer (R := Eq) h s
    rw [Operation.perform]
    generalize consumer h s = answer at checked
    obtain ⟨_ | _, m⟩ := answer
    · obtain rfl : s = m := checked
      exact .refl s
    · obtain rfl : s = m := checked
      exact routine_process wf h ends
  | advanceTo tick => exact .tick s _
  | createSignal | allocate | free | assign | takeHostBlock | register | deregister | createQueue
  | createSoftQueue | destroyQueue | shutDown | createExecutable | loadCode | freezeExecutable
  | destroyExecutable => exact routine.elim

/-- An operation on code changes nothing else. -/
theorem reloads_perform {o : Operation} (loads : o.LoadsCode) : s.Reloads (o.perform s) := by
  cases o with
  | createExecutable => exact keeps_createExecutable s
  | loadCode h agent code => exact keeps_loadCode h agent code s
  | freezeExecutable h => exact keeps_freezeExecutable h s
  | destroyExecutable h => exact keeps_destroyExecutable h s
  | _ => exact loads.elim

/-- An operation changes no queues but those that it touches. -/
theorem changes_perform (room : s.HasRoom) (wf : s.queues.WellFormed Queue.handle)
    (o : Operation) : s.Changes o.Touches (o.perform s) := by
  cases o with
  | createSignal => exact (keeps_createSignal _ _ _ s).changes
  | allocate => exact (keeps_allocate _ _ s).changes
  | free => exact (keeps_free _ s).changes
  | assign => exact (keeps_assign _ _ _ s).changes
  | takeHostBlock size =>
    refine SameQueues.changes ?_
    rw [Operation.perform, hostBlock?]
    cases s.memory.host.allocate? size 1 <;> exact ⟨rfl, rfl, rfl, fun _ => rfl⟩
  | register => exact (keeps_register _ _ s).changes
  | deregister => exact (keeps_deregister _ _ s).changes
  | createQueue => exact changes_createQueue wf room.2.1 _ _ _ _
  | createSoftQueue => exact keeps_createSoftQueue _ _ _ _ _ s room.2.1
  | destroyQueue h => exact keeps_destroyQueue h s
  | shutDown => exact keeps_shutDown s
  | createExecutable | loadCode | freezeExecutable | destroyExecutable =>
    refine (reloads_perform ?_).sameQueues.changes
    trivial
  | _ =>
    refine (routine_perform wf ?_).changes
    trivial

/-- What happens in a session changes no queues but those that are touched. -/
theorem Step.changes {turn : Turn} (step : Step turn s t) (wf : s.queues.WellFormed Queue.handle) :
    s.Changes turn.Touches t := by
  cases step with
  | application room ready => exact changes_perform room wf _
  | @processor _ _ h q live stepped =>
    have named := wf.named h q live
    obtain ⟨p, deeds, -, move⟩ := Move.exists_of_stepProcessor? stepped
    exact named ▸ move.changes

/-! ### Well-formed sessions -/

theorem WellFormed.of_changes {touched : Handle → Prop} (wf : s.WellFormed)
    (changes : s.Changes touched t) : t.WellFormed where
  queues := changes.wellFormed wf.queues
  agents h a found := by
    have same := changes.agents h
    rw [found, Option.map_some] at same
    obtain ⟨b, before, equal⟩ := Option.map_eq_some_iff.mp same.symm
    exact (congrArg Prod.fst equal).symm.trans (wf.agents h b before)

theorem WellFormed.withHardwareQueue (wf : s.WellFormed) (room : s.HasRoom) (a : Agent)
    (host : Host) {q : Queue} (named : q.handle = s.queues.nextHandle) :
    (s.withHardwareQueue a q host).WellFormed :=
  wf.of_changes (changes_withHardwareQueue room.2.1 a host named)

/-- The agents of a configuration know their handles. -/
theorem handle_openAgents (c : Config) (h : Handle) (a : Agent)
    (found : (openAgents c).get? h = some a) : a.handle = h := by
  obtain ⟨info, -, rfl⟩ := Arena.exists_of_get?_fill found
  rfl

/-- The sessions of runs are well-formed. -/
theorem Reachable.wellFormed (reachable : s.Reachable) : s.WellFormed := by
  induction reachable with
  | @opened c s opened =>
    rw [openConfig] at opened
    split at opened
    · cases opened
      exact ⟨Directory.wellFormed_empty, handle_openAgents c⟩
    · cases opened
  | rehost _ host wf => exact ⟨wf.queues, wf.agents⟩
  | step before step wf => exact wf.of_changes (step.changes wf.queues)

end Session

end Accelerator
