import Accelerator.Proofs.Runs.Queues

/-!
# Making hardware queues

A hardware queue is put in its place, and then its command processor is started. The first may fail
for many reasons, and nothing has happened then. The second fails only if the host has no thread,
and by then the queue has its handle and its number, and its doorbell a handle too. The queue is
withdrawn, which is what its destruction comes to: everything it took is given back, but what was
issued stays issued.

So there are three outcomes, and they are told apart here once. What the queue and the session look
like is written down as data, so that whatever is to be shown of a new queue can be read off.

## Main definitions

* `Session.hardwareQueue`: the queue that is put in its place.
* `Session.withHardwareQueue`: the session after that.
* `Session.Placement`: all that is checked has been found to hold, and the host had memory.

## Main results

* `Session.createQueue_cases`: the three outcomes.
* `Session.withdrawQueue_eq`: withdrawing a queue is taking it out and tearing it down.
* `Session.changes_createQueue`: no other queue is touched.
-/

namespace Accelerator

namespace Session

open Accelerator.Action

variable {s t : Session} {h : Handle} {q : Queue} {size : UInt32} {a : Agent} {base : UInt64}
variable {host : Host} {type : QueueType} {options : QueueOptions}

/-- The hardware queue that is put in its place for an agent. -/
def hardwareQueue (s : Session) (a : Agent) (size : UInt32) (type : QueueType)
    (options : QueueOptions) (base : UInt64) : Queue where
  handle := s.queues.nextHandle
  id := s.nextQueueId
  ring := .ofSize size
  baseAddress := base
  type := type
  features := a.info.features
  agent := some a.handle
  doorbell := s.signals.nextHandle
  state := .active
  privateSegmentSize := options.privateSegmentSize
  groupSegmentSize := options.groupSegmentSize
  notifies := options.notifies
  ringAllocation := none
  processor := if a.info.features.contains .kernelDispatch then some .start else none

/-- The session with a new hardware queue of an agent, whose ring the host had memory for. -/
def withHardwareQueue (s : Session) (a : Agent) (q : Queue) (host : Host) : Session :=
  { s.modifyAgent a.handle (·.addQueue) with
    memory := { s.memory with host }
    signals := s.signals.insert ⟨s.signals.nextHandle, idleDoorbell, []⟩
    queues := s.queues.insert q
    nextQueueId := s.nextQueueId + 1 }

/-- All that is checked before a hardware queue is put in its place has been found to hold, and the
host has had memory for the ring. -/
structure Placement (s : Session) (h : Handle) (size : UInt32) (type : QueueType) (a : Agent)
    (base : UInt64) (host : Host) : Prop where
  isOpen : s.isOpen = true
  live : s.agents.get? h = some a
  sized : size.toNat.isPowerOfTwo
  range : (a.info.queueMinSize ≤ size && size ≤ a.info.queueMaxSize) = true
  hosts : a.hostsQueues = true
  supported : a.info.queueType.supports type = true
  room : a.hasRoom = true
  served : s.memory.host.allocate? (PacketRing.storageBytes size).toNat Packet.alignment =
    some (base, host)

/-- A signal for which no consumers are named can be made as long as the session is open. -/
theorem createSignal_unnamed (isOpen : s.isOpen = true) (initial : Int64) :
    createSignal initial 0 [] s = (.ok s.signals.nextHandle,
      { s with signals := s.signals.insert ⟨s.signals.nextHandle, initial, []⟩ }) := by
  have opened : ensureOpen s = (.ok (), s) := ensureOpen_eq_ok.mpr ⟨isOpen, rfl⟩
  rw [createSignal, bind_apply, opened]
  rfl

/-- Checks may come first: one that fails ends the action with nothing done. -/
theorem cases_bind {α β : Type} {x : Action α} {f : α → Action β}
    {P : Except Fault β × Session → Prop} (looks : Keeps Eq x) (failed : ∀ e, P (.error e, s))
    (rest : ∀ a, x s = (.ok a, s) → P (f a s)) : P ((x >>= f) s) := by
  rcases looks.answers s with ⟨a, found⟩ | ⟨e, missing⟩
  · rw [bind_of_ok found]
    exact rest a found
  · rw [bind_of_error missing]
    exact failed e

/-- A hardware queue is put in its place, or nothing happens. -/
theorem placeQueue_cases (h : Handle) (size : UInt32) (type : QueueType) (options : QueueOptions)
    (s : Session) :
    (∃ e, placeQueue h size type options s = (.error e, s)) ∨
      ∃ a base host, s.Placement h size type a base host ∧
        placeQueue h size type options s = (.ok (s.hardwareQueue a size type options base),
          s.withHardwareQueue a (s.hardwareQueue a size type options base) host) := by
  let Outcome := fun answer : Except Fault Queue × Session =>
    (∃ e, answer = (.error e, s)) ∨ ∃ a base host, s.Placement h size type a base host ∧
      answer = (.ok (s.hardwareQueue a size type options base),
        s.withHardwareQueue a (s.hardwareQueue a size type options base) host)
  have failed : ∀ e, Outcome (.error e, s) := fun e => .inl ⟨e, rfl⟩
  show Outcome _
  refine cases_bind (keeps_agent _) failed fun a found =>
    cases_bind (keeps_require _ _) failed fun _ _ =>
    cases_bind (keeps_require _ _) failed fun _ range =>
    cases_bind (keeps_require _ _) failed fun _ hosts =>
    cases_bind (keeps_require _ _) failed fun _ supported =>
    cases_bind (keeps_require _ _) failed fun _ roomy => ?_
  obtain ⟨isOpen, live, -⟩ := agent_eq_ok found
  rw [bind_apply, change_apply]
  dsimp only
  rw [bind_apply, session_apply]
  dsimp only
  cases taken : PacketRing.allocate? size (s.modifyAgent a.handle (·.addQueue)).memory.host with
  | none =>
    -- the place of the agent is given back
    have same : (s.agents.modify a.handle (·.addQueue)).modify a.handle (·.dropQueue) = s.agents :=
      Arena.modify_modify_cancel (fun a => by simp [Agent.addQueue, Agent.dropQueue]) _ _
    exact .inl ⟨_, Prod.ext rfl (congrArg (fun agents => { s with agents }) same)⟩
  | some block =>
    rw [PacketRing.allocate?] at taken
    split at taken
    · obtain ⟨⟨base, host⟩, served, same⟩ := Option.map_eq_some_iff.mp taken
      cases same
      dsimp only
      rw [bind_apply, change_apply]
      dsimp only
      rw [bind_apply, createSignal_unnamed (by exact isOpen)]
      have checked := fun {p e u} => And.left ∘ (@require_eq_ok s s p e u).mp
      exact .inr ⟨a, base, host, ⟨isOpen, live, ‹_›, checked range, checked hosts,
        checked supported, checked roomy, served⟩, rfl⟩
    · cases taken

/-- If all checks pass and the host has memory, the queue is put in its place. -/
theorem Placement.placeQueue_eq (placement : s.Placement h size type a base host)
    (options : QueueOptions) : placeQueue h size type options s =
      (.ok (s.hardwareQueue a size type options base),
        s.withHardwareQueue a (s.hardwareQueue a size type options base) host) := by
  obtain ⟨isOpen, live, sized, range, hosts, supported, room, served⟩ := placement
  have passed := fun {p e} (holds : p = true) => (@require_eq_ok s s p e ()).mpr ⟨holds, rfl⟩
  have found : agent h s = (.ok a, s) := by
    simp [agent, bind_apply, ensureOpen, require, demand, Action.pure, isOpen, live]
  have taken : PacketRing.allocate? size (s.modifyAgent a.handle (·.addQueue)).memory.host =
      some (.ofSize size, base, host) := by
    rw [PacketRing.allocate?, if_pos sized]
    exact congrArg (Option.map _) served
  rw [placeQueue, bind_of_ok found, bind_of_ok (passed (decide_eq_true sized)),
    bind_of_ok (passed range), bind_of_ok (passed hosts), bind_of_ok (passed supported),
    bind_of_ok (passed room), bind_of_ok (change_apply _ s), bind_of_ok (session_apply _), taken]
  dsimp only
  rw [bind_of_ok (change_apply _ _), bind_of_ok (createSignal_unnamed (by exact isOpen) _)]
  rfl

/-- What the host says of threads does not change when it hands out a block. -/
theorem threadFault_of_allocate? {before : Host} {bytes alignment : Nat}
    (served : before.allocate? bytes alignment = some (base, host)) :
    host.threadFault = before.threadFault := by
  obtain ⟨_, -, same⟩ := Option.map_eq_some_iff.mp served
  cases same
  rfl

/-- If the host has threads, there is one for the command processor. -/
theorem startProcessor_eq (threads : s.memory.host.threadFault = none) (q : Queue) :
    startProcessor q s = (.ok q, s) := by
  rw [startProcessor, bind_of_ok (session_apply s), threads]
  cases q.processor <;> rfl

/-- Making a hardware queue fails with nothing done, or the queue is there, or the queue was put in
its place and withdrawn because the host has no thread for its command processor. -/
theorem createQueue_cases (h : Handle) (size : UInt32) (type : QueueType) (options : QueueOptions)
    (s : Session) :
    (∃ e, createQueue h size type options s = (.error e, s)) ∨
      ∃ a base host, s.Placement h size type a base host ∧
        (createQueue h size type options s = (.ok (s.hardwareQueue a size type options base),
            s.withHardwareQueue a (s.hardwareQueue a size type options base) host) ∨
          a.info.features.contains .kernelDispatch = true ∧ ∃ reason,
            s.memory.host.threadFault = some reason ∧
            createQueue h size type options s = (.error (.queue (.noThread reason)),
              (s.withHardwareQueue a (s.hardwareQueue a size type options base) host).withdrawQueue
                (s.hardwareQueue a size type options base))) := by
  rcases placeQueue_cases h size type options s with
    ⟨e, refused⟩ | ⟨a, base, host, placement, placed⟩
  · exact .inl ⟨e, bind_of_error refused⟩
  refine .inr ⟨a, base, host, placement, ?_⟩
  have started : createQueue h size type options s = startProcessor _ _ := bind_of_ok placed
  have threads := threadFault_of_allocate? placement.served
  rw [started, startProcessor, bind_apply, session_apply]
  dsimp only [hardwareQueue, withHardwareQueue]
  rw [threads]
  cases kernels : a.info.features.contains .kernelDispatch with
  | false => exact .inl rfl
  | true =>
    cases fault : s.memory.host.threadFault with
    | none => exact .inl rfl
    | some reason => exact .inr ⟨rfl, reason, rfl, rfl⟩

/-- A hardware queue that was made is in its place. -/
theorem exists_placement_of_createQueue (made : createQueue h size type options s = (.ok q, t)) :
    ∃ a base host,
      s.Placement h size type a base host ∧ q = s.hardwareQueue a size type options base ∧
        t = s.withHardwareQueue a q host := by
  rcases createQueue_cases h size type options s with
    ⟨e, refused⟩ | ⟨a, base, host, placement, there | ⟨-, reason, -, withdrawn⟩⟩
  · cases made.symm.trans refused
  · cases made.symm.trans there
    exact ⟨a, base, host, placement, rfl, rfl⟩
  · cases made.symm.trans withdrawn

/-- A queue that is withdrawn is taken out and torn down. -/
theorem withdrawQueue_eq (wf : s.queues.WellFormed Queue.handle)
    (room : s.queues.live.slots.size < 2 ^ 32) (a : Agent) (host : Host)
    (named : q.handle = s.queues.nextHandle) :
    ∃ queues, (s.queues.insert q).remove s.queues.nextHandle Queue.destroy =
        some (q.destroy, queues) ∧
      (s.withHardwareQueue a q host).withdrawQueue q =
        { s.withHardwareQueue a q host with queues }.tearDown q.destroy := by
  have live : (s.queues.insert q).get? s.queues.nextHandle = some q :=
    (Directory.get?_insert wf room _ _).trans (if_pos rfl)
  obtain ⟨queues, removed⟩ := Directory.exists_remove live Queue.destroy
  have taken : (s.withHardwareQueue a q host).queues.remove q.handle Queue.destroy =
      some (q.destroy, queues) := named ▸ removed
  refine ⟨queues, removed, ?_⟩
  rw [withdrawQueue, taken]
  rfl

/-- A new queue touches no queue that there was. -/
theorem changes_withHardwareQueue (room : s.queues.live.slots.size < 2 ^ 32) (a : Agent)
    (host : Host) (named : q.handle = s.queues.nextHandle) :
    s.Changes (fun _ => False) (s.withHardwareQueue a q host) where
  queues := .insert room named
  told _ _ := rfl
  isOpen := .inl rfl
  agents := (s.sameQueues_modifyAgent a.handle (f := (·.addQueue)) fun _ => ⟨rfl, rfl⟩).agents

/-- Making a hardware queue touches no queue that there was. -/
theorem changes_createQueue (wf : s.queues.WellFormed Queue.handle)
    (room : s.queues.live.slots.size < 2 ^ 32) (h : Handle) (size : UInt32) (type : QueueType)
    (options : QueueOptions) :
    s.Changes (fun _ => False) (createQueue h size type options s).2 := by
  rcases createQueue_cases h size type options s with
    ⟨e, refused⟩ | ⟨a, base, host, placement, made | ⟨-, reason, -, withdrawn⟩⟩
  · rw [refused]
    exact refl_of (Changes fun _ => False) s
  · rw [made]
    exact changes_withHardwareQueue room a host rfl
  · obtain ⟨queues, removed, same⟩ := withdrawQueue_eq wf room a host
      (rfl : (s.hardwareQueue a size type options base).handle = _)
    have placed := s.changes_withHardwareQueue room a host
      (rfl : (s.hardwareQueue a size type options base).handle = _)
    have passed : s.Changes (fun _ => False)
        { s.withHardwareQueue a (s.hardwareQueue a size type options base) host with queues } :=
      { placed with queues := .pass room rfl destroy_handle removed }
    rw [withdrawn, same]
    exact trans_of (Changes fun _ => False) passed
      (sameQueues_tearDown _ (s.hardwareQueue a size type options base).destroy).changes

end Session

end Accelerator
