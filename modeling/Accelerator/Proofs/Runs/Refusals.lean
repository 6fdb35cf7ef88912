import Accelerator.Proofs.Runs.Signals

/-!
# Refused requests

What the application asks for goes through a chain of checks, and most changes come after the last
of them. Two requests take something before they know whether they can go on: a queue takes a place
of its agent, or of the session, and is then given memory for its ring or not. They give the place
back. So a request that is refused leaves no trace: the session is the same, the numbers and handles
that would be issued next included.

There is one exception. A hardware queue has been made by the time its command processor is started,
and if the host has no thread for that, the queue is destroyed again. What was issued for it is not
issued once more: a number of queues, a handle of queues, and a handle of signals for the doorbell.
Everything else is as before, and it is what making the queue and destroying it would have come to.

## Main definitions

* `Action.Atomic`: in a session, an action gives its answer or changes nothing.
* `Request`: what the application may ask for, by the type of the answer.
* `Request.Withdraws`: a hardware queue was asked for, and there is no thread for it.
* `Session.IssuedInVain`: what is left of a hardware queue that was made and destroyed.

## Main results

* `Action.atomic_bind`: checks may come first.
* `Request.unchanged_or_withdrawn`: a request that is refused changes nothing, with this exception.
* `Request.withdrawn_changes`: the exception.

## Implementation notes

Storing an index, publishing a packet and submitting one are not requests in this sense. They are
the steps of a protocol, and what has been reserved or published is not taken back.
-/

namespace Accelerator

namespace Action

variable {α β : Type} {x : Action α} {f : α → Action β} {s t : Session}

/-- In a session the action gives an answer, or it changes nothing. -/
def Atomic (x : Action α) (s : Session) : Prop :=
  ∀ e t, x s = (.error e, t) → t = s

theorem Keeps.atomic (looks : Keeps Eq x) (s : Session) : x.Atomic s := by
  intro e t failed
  exact (looks.of_eq failed).symm

theorem atomic_of_ok {a : α} (answer : x s = (.ok a, t)) : x.Atomic s := by
  intro e u failed
  cases answer.symm.trans failed

/-- Checks may come first: one that fails ends the action with nothing done. -/
theorem atomic_bind (looks : Keeps Eq x) (rest : ∀ a, x s = (.ok a, s) → (f a).Atomic s) :
    (x >>= f).Atomic s := by
  intro e t failed
  rcases looks.answers s with ⟨a, found⟩ | ⟨_, missing⟩
  · rw [bind_of_ok found] at failed
    exact rest a found e t failed
  · rw [bind_of_error missing] at failed
    cases failed
    rfl

end Action

open Session Accelerator.Action

/-- What the application may ask for, by the type of the answer. -/
inductive Request : Type → Type where
  | createSignal (initial : Int64) (count : UInt32) (consumers : List Handle) : Request Handle
  | destroySignal (h : Handle) : Request Unit
  | loadSignal (h : Handle) (order : MemoryOrder) : Request Int64
  | storeSignal (h : Handle) (value : Int64) (order : MemoryOrder) : Request Unit
  | updateSignal (h : Handle) (update : Signal.Update) (order : MemoryOrder) : Request Int64
  | wait (w : Wait) : Request (Progress Wait Int64)
  | resumeWait (w : Wait) : Request (Progress Wait Int64)
  | createQueue (agent : Handle) (size : UInt32) (type : QueueType) (options : QueueOptions) :
      Request Queue
  | createSoftQueue (region : Handle) (size : UInt32) (type : QueueType) (features : Features)
      (doorbell : Handle) : Request Queue
  | inactivateQueue (h : Handle) : Request Unit
  | destroyQueue (h : Handle) : Request Unit
  | allocate (region : Handle) (size : UInt64) : Request (UInt64 × UInt64)
  | free (address : UInt64) : Request Unit
  | assign (address : UInt64) (agent : Handle) (access : AccessPermission) : Request Unit
  | register (address size : UInt64) : Request Unit
  | deregister (address size : UInt64) : Request Unit
  | writeMemory (address : UInt64) (bs : List UInt8) : Request Unit
  | copyMemory (target source size : UInt64) : Request Unit
  | createExecutable : Request Handle
  | loadCode (h agent : Handle) (code : CodeObject) : Request Unit
  | freezeExecutable (h : Handle) : Request Unit
  | destroyExecutable (h : Handle) : Request Unit
  | shutDown : Request Unit

namespace Request

variable {α : Type} {s t : Session} {e : Fault}

/-- The action that a request asks for. -/
def run : Request α → Action α
  | createSignal initial count consumers => Session.createSignal initial count consumers
  | destroySignal h => Session.destroySignal h
  | loadSignal h order => Session.loadSignal h order
  | storeSignal h value order => Session.storeSignal h value order
  | updateSignal h update order => Session.updateSignal h update order
  | wait w => Session.wait w
  | resumeWait w => Session.resumeWait w
  | createQueue agent size type options => Session.createQueue agent size type options
  | createSoftQueue region size type features doorbell =>
    Session.createSoftQueue region size type features doorbell
  | inactivateQueue h => Session.inactivateQueue h
  | destroyQueue h => Session.destroyQueue h
  | allocate region size => Session.allocate region size
  | free address => Session.free address
  | assign address agent access => Session.assign address agent access
  | register address size => Session.register address size
  | deregister address size => Session.deregister address size
  | writeMemory address bs => Session.writeMemory address bs
  | copyMemory target source size => Session.copyMemory target source size
  | createExecutable => Session.createExecutable
  | loadCode h agent code => Session.loadCode h agent code
  | freezeExecutable h => Session.freezeExecutable h
  | destroyExecutable h => Session.destroyExecutable h
  | shutDown => Session.shutDown

/-! ### Waiting -/

theorem keeps_resumeWait (w : Wait) : Keeps Eq (Session.resumeWait w) := by
  refine keeps_session.bind fun s => (keeps_demand _ _).bind fun held => ?_
  split
  · exact keeps_pure _
  · exact (keeps_signal _).bind fun _ => keeps_pure _

/-! ### Requests that give back what they took -/

theorem atomic_createSoftQueue (regionHandle : Handle) (size : UInt32) (type : QueueType)
    (features : Features) (doorbell : Handle) (s : Session) :
    (Session.createSoftQueue regionHandle size type features doorbell).Atomic s := by
  refine atomic_bind keeps_ensureOpen fun _ _ => atomic_bind (keeps_require _ _) fun _ _ =>
    atomic_bind (keeps_require _ _) fun _ _ => atomic_bind (keeps_require _ _) fun _ _ =>
    atomic_bind (keeps_region _) fun r _ => atomic_bind (keeps_signal _) fun _ _ =>
    atomic_bind keeps_session fun _ _ => atomic_bind keeps_session fun _ _ =>
    atomic_bind (keeps_require _ _) fun _ _ => ?_
  intro e t failed
  rw [bind_apply, change_apply] at failed
  dsimp only at failed
  rw [bind_apply, session_apply] at failed
  revert failed
  dsimp only
  cases allocateFrom _ r (PacketRing.storageBytes size) (.ofNat Packet.alignment) .queueRing with
  | error cause =>
    -- no memory for a ring: the place of the session is given back
    rintro ⟨⟩
    have same : s.softQueues + 1 - 1 = s.softQueues := by simp
    exact congrArg (fun softQueues => { s with softQueues }) same
  | ok block => rintro ⟨⟩

/-! ### Requests that change nothing -/

/-- A command processor may have to be started. -/
def StartsProcessor : Request α → Prop
  | createQueue _ _ _ _ => True
  | _ => False

theorem atomic_allocate (h : Handle) (size : UInt64) (s : Session) :
    (Session.allocate h size).Atomic s := by
  refine atomic_bind (keeps_region h) fun r _ => atomic_bind keeps_session fun _ _ => ?_
  split
  · exact (keeps_refuse _).atomic s
  · exact atomic_of_ok rfl

theorem atomic_free (address : UInt64) (s : Session) : (Session.free address).Atomic s :=
  atomic_bind keeps_ensureOpen fun _ _ => atomic_bind keeps_session fun _ _ =>
    atomic_bind (keeps_liftM _) fun _ _ => atomic_of_ok rfl

theorem atomic (r : Request α) (others : ¬ r.StartsProcessor) (s : Session) : r.run.Atomic s := by
  cases r with
  | createSignal initial count consumers =>
    exact atomic_bind keeps_ensureOpen fun _ _ => atomic_bind (keeps_require _ _) fun _ _ =>
      atomic_bind (keeps_forM (fun h => (keeps_agent h).discard) _) fun _ _ => atomic_of_ok rfl
  | loadSignal h order =>
    exact Keeps.atomic ((keeps_signal h).bind fun _ => (keeps_liftM _).bind fun _ =>
      keeps_pure _) s
  | wait w => exact Keeps.atomic ((keeps_signal _).bind fun _ => keeps_resumeWait w) s
  | resumeWait w => exact (keeps_resumeWait w).atomic s
  | storeSignal h =>
    exact atomic_bind (keeps_signal h) fun _ _ => atomic_bind (keeps_liftM _) fun _ _ =>
      atomic_of_ok rfl
  | updateSignal h => exact atomic_bind (keeps_signal h) fun _ _ => atomic_of_ok rfl
  | createQueue => exact (others trivial).elim
  | createSoftQueue => exact atomic_createSoftQueue _ _ _ _ _ s
  | inactivateQueue h => exact atomic_bind (keeps_queue h) fun _ _ => atomic_of_ok rfl
  | allocate region size => exact atomic_allocate region size s
  | free address => exact atomic_free address s
  | assign _ agent =>
    exact atomic_bind (keeps_agent agent) fun _ _ => atomic_bind keeps_session fun _ _ =>
      atomic_bind (keeps_liftM _) fun _ _ => atomic_of_ok rfl
  | createExecutable => exact atomic_bind keeps_ensureOpen fun _ _ => atomic_of_ok rfl
  | loadCode h agent =>
    exact atomic_bind (keeps_executable h) fun _ _ => atomic_bind (keeps_agent agent) fun _ _ =>
      atomic_bind (keeps_require _ _) fun _ _ => atomic_bind (keeps_require _ _) fun _ _ =>
        atomic_bind (keeps_liftM _) fun _ _ => atomic_of_ok rfl
  | freezeExecutable h =>
    exact atomic_bind (keeps_executable h) fun _ _ => atomic_bind keeps_session fun _ _ =>
      atomic_bind (keeps_liftM _) fun _ _ => atomic_of_ok rfl
  | register | deregister | copyMemory =>
    exact atomic_bind keeps_ensureOpen fun _ _ => atomic_bind keeps_session fun _ _ =>
      atomic_bind (keeps_liftM _) fun _ _ => atomic_of_ok rfl
  | destroySignal | destroyQueue | destroyExecutable | writeMemory =>
    exact atomic_bind keeps_ensureOpen fun _ _ => atomic_bind keeps_session fun _ _ =>
      atomic_bind (keeps_demand _ _) fun _ _ => atomic_of_ok rfl
  | shutDown => exact atomic_bind keeps_ensureOpen fun _ _ => atomic_of_ok rfl

/-! ### Queues made in vain -/

/-- A hardware queue was asked for, and it was put in its place; but the host has no thread for its
command processor, and so it was withdrawn. -/
def Withdraws (s : Session) (e : Fault) (t : Session) : Request α → Prop
  | createQueue h size type options => ∃ a base host reason,
    s.Placement h size type a base host ∧ s.memory.host.threadFault = some reason ∧
      e = .queue (.noThread reason) ∧
      t = (s.withHardwareQueue a (s.hardwareQueue a size type options base) host).withdrawQueue
        (s.hardwareQueue a size type options base)
  | _ => False

end Request

/-- The host has a thread for every command processor. -/
def Host.threaded (host : Host) : Host :=
  { host with threadFault := none }

namespace Session

variable {s t : Session} {h : Handle} {q : Queue} {size : UInt32} {type : QueueType}
variable {options : QueueOptions} {a : Agent} {base : UInt64} {host : Host}

/-- One number and one handle of queues and one handle of signals were issued, and the host was
asked for memory. Nothing else has happened. -/
structure IssuedInVain (s t : Session) : Prop where
  rest : t = { s with
    queues := t.queues
    signals := t.signals
    nextQueueId := s.nextQueueId + 1
    memory := { s.memory with host := t.memory.host } }
  queues : ∀ h, t.queues.get? h = s.queues.get? h
  heldQueues : ∀ h q, s.heldQueue? h = some q → t.heldQueue? h = some q
  signals : ∀ h, t.signals.get? h = s.signals.get? h
  heldSignals : ∀ h signal, s.heldSignal? h = some signal → t.heldSignal? h = some signal
  queueIssued : t.queues.Issued s.queues.nextHandle
  doorbellIssued : t.signals.Issued s.signals.nextHandle

/-- Withdrawing a hardware queue takes it and its doorbell out, and that is all. -/
theorem withdrawQueue_hardwareQueue (room : s.HasRoom) (wf : s.WellFormed)
    (signals : s.signals.WellFormed Signal.handle) (a : Agent) (size : UInt32) (type : QueueType)
    (options : QueueOptions) (base : UInt64) (host : Host) : ∃ queues bells,
    (s.queues.insert (s.hardwareQueue a size type options base)).remove s.queues.nextHandle
        Queue.destroy = some ((s.hardwareQueue a size type options base).destroy, queues) ∧
      (s.signals.insert ⟨s.signals.nextHandle, idleDoorbell, []⟩).remove s.signals.nextHandle id =
        some (⟨s.signals.nextHandle, idleDoorbell, []⟩, bells) ∧
      (s.withHardwareQueue a (s.hardwareQueue a size type options base) host).withdrawQueue
          (s.hardwareQueue a size type options base) =
        { s with
          queues
          signals := bells
          nextQueueId := s.nextQueueId + 1
          memory := { s.memory with host } } := by
  obtain ⟨queues, removed, withdrawn⟩ := withdrawQueue_eq wf.queues room.2.1 a host
    (rfl : (s.hardwareQueue a size type options base).handle = _)
  have bell : (s.signals.insert ⟨s.signals.nextHandle, idleDoorbell, []⟩).get?
      s.signals.nextHandle = some ⟨s.signals.nextHandle, idleDoorbell, []⟩ :=
    (Directory.get?_insert signals room.1 _ _).trans (if_pos rfl)
  obtain ⟨bells, silenced⟩ := Directory.exists_remove bell id
  -- the place of the agent is given back
  have agents : (s.agents.modify a.handle (·.addQueue)).modify a.handle (·.dropQueue) = s.agents :=
    Arena.modify_modify_cancel (fun a => by simp [Agent.addQueue, Agent.dropQueue]) _ _
  refine ⟨queues, bells, removed, silenced, withdrawn.trans ?_⟩
  dsimp only [tearDown, Queue.destroy, hardwareQueue, withHardwareQueue, modifyAgent]
  rw [silenced]
  dsimp only
  rw [agents]

/-- A hardware queue that was withdrawn has left nothing but what was issued for it. -/
theorem Hosted.issuedInVain (hosted : s.Hosted) (room : s.HasRoom) (a : Agent) (size : UInt32)
    (type : QueueType) (options : QueueOptions) (base : UInt64) (host : Host) :
    s.IssuedInVain ((s.withHardwareQueue a (s.hardwareQueue a size type options base)
      host).withdrawQueue (s.hardwareQueue a size type options base)) := by
  have wf := hosted.wellFormed.queues
  have signals := hosted.signals
  obtain ⟨queues, bells, removed, silenced, same⟩ := withdrawQueue_hardwareQueue room
    hosted.wellFormed signals a size type options base host
  rw [same]
  exact
    { rest := rfl
      queues := fun h => Directory.get?_pass wf room.2.1 rfl removed h
      heldQueues := fun h q held => (Directory.held?_pass wf room.2.1 rfl removed h).trans
        ((if_neg (wf.ne_nextHandle room.2.1 held)).trans held)
      signals := fun h => Directory.get?_pass signals room.1 rfl silenced h
      heldSignals := fun h signal held => (Directory.held?_pass signals room.1 rfl silenced h).trans
        ((if_neg (signals.ne_nextHandle room.1 held)).trans held)
      queueIssued := Directory.issued_of_remove removed
      doorbellIssued := Directory.issued_of_remove silenced }

/-- The session on a host that has a thread for every command processor. -/
def threaded (s : Session) : Session :=
  s.rehost s.memory.host.threaded

theorem Placement.threaded (placement : s.Placement h size type a base host) :
    s.threaded.Placement h size type a base host.threaded := by
  obtain ⟨isOpen, live, sized, range, hosts, supported, room, served⟩ := placement
  refine ⟨isOpen, live, sized, range, hosts, supported, room, ?_⟩
  obtain ⟨start, chosen, same⟩ := Option.map_eq_some_iff.mp served
  cases same
  exact Option.map_eq_some_iff.mpr ⟨_, chosen, rfl⟩

/-- If there is a thread for its command processor, the queue is made. -/
theorem Placement.createQueue_threaded (placement : s.Placement h size type a base host)
    (options : QueueOptions) : createQueue h size type options s.threaded =
      (.ok (s.hardwareQueue a size type options base), s.threaded.withHardwareQueue a
        (s.hardwareQueue a size type options base) host.threaded) := by
  have placed := placement.threaded.placeQueue_eq options
  rw [createQueue, bind_of_ok placed]
  exact startProcessor_eq rfl _

/-- Destroying the queue comes to the same as withdrawing it. -/
theorem Placement.destroyQueue_threaded (placement : s.Placement h size type a base host)
    (room : s.HasRoom) (wf : s.WellFormed) (signals : s.signals.WellFormed Signal.handle)
    (options : QueueOptions) :
    destroyQueue s.queues.nextHandle (s.threaded.withHardwareQueue a
        (s.hardwareQueue a size type options base) host.threaded) =
      (.ok (), ((s.withHardwareQueue a (s.hardwareQueue a size type options base)
        host).withdrawQueue (s.hardwareQueue a size type options base)).threaded) := by
  have wf' : s.threaded.WellFormed := ⟨wf.queues, wf.agents⟩
  obtain ⟨queues, removed, withdrawn⟩ := withdrawQueue_eq (s := s.threaded) wf.queues room.2.1 a
    host.threaded (rfl : (s.hardwareQueue a size type options base).handle = _)
  have opened : ensureOpen (s.threaded.withHardwareQueue a
      (s.hardwareQueue a size type options base) host.threaded) = (.ok (), _) :=
    ensureOpen_eq_ok.mpr ⟨placement.isOpen, rfl⟩
  have taken : (s.threaded.withHardwareQueue a (s.hardwareQueue a size type options base)
      host.threaded).queues.remove s.queues.nextHandle Queue.destroy = some _ := removed
  rw [destroyQueue, bind_of_ok opened, bind_of_ok (session_apply _), taken]
  refine Prod.ext rfl (withdrawn.symm.trans ?_)
  obtain ⟨_, _, removed, silenced, same⟩ :=
    withdrawQueue_hardwareQueue room wf signals a size type options base host
  obtain ⟨_, _, removed', silenced', same'⟩ := withdrawQueue_hardwareQueue (s := s.threaded) room
    wf' signals a size type options base host.threaded
  cases removed.symm.trans removed'
  cases silenced.symm.trans silenced'
  rw [same]
  exact same'

end Session

namespace Request

variable {α : Type} {s t : Session} {e : Fault}

theorem withdraws_createQueue {h : Handle} {size : UInt32} {type : QueueType}
    {options : QueueOptions}
    (refused : Session.createQueue h size type options s = (.error e, t)) :
    t = s ∨ (createQueue h size type options).Withdraws s e t := by
  rcases createQueue_cases h size type options s with
    ⟨e, failed⟩ | ⟨a, base, host, placement, made | ⟨-, reason, fault, withdrawn⟩⟩
  · cases refused.symm.trans failed
    exact .inl rfl
  · cases refused.symm.trans made
  · cases refused.symm.trans withdrawn
    exact .inr ⟨a, base, host, reason, placement, fault, rfl, rfl⟩

/-- A request that is refused changes nothing: no object, no number, no handle that would be issued
next, no byte of memory, no packet and no index. Only a hardware queue for which the host has no
thread has been made by then, and is withdrawn. This leaves what making it and destroying it would
have left: a number and two handles have been issued, and nothing else is different. -/
theorem unchanged_or_withdrawn (r : Request α) (refused : r.run s = (.error e, t)) :
    (t = s ∨ r.Withdraws s e t) ∧
      (r.Withdraws s e t → s.Hosted → s.HasRoom → s.IssuedInVain t ∧
        ∃ h size type options q m,
          Session.createQueue h size type options s.threaded = (.ok q, m) ∧
          Session.destroyQueue q.handle m = (.ok (), t.threaded)) := by
  refine ⟨?_, fun withdraws hosted room => ?_⟩
  · cases r with
    | createQueue => exact withdraws_createQueue refused
    | _ => exact .inl (atomic _ id s e t refused)
  · cases r with
    | createQueue h size type options =>
      obtain ⟨a, base, host, reason, placement, -, -, rfl⟩ := withdraws
      exact ⟨hosted.issuedInVain room a size type options base host, h, size, type, options, _, _,
        placement.createQueue_threaded options,
        placement.destroyQueue_threaded room hosted.wellFormed hosted.signals options⟩
    | _ => exact withdraws.elim

/-- A ring that is larger than an allocation may be: the place for the soft queue had been taken by
then. -/
theorem unchanged_of_ring_too_large : ∃ s : Session, s.Ascending ∧
    Session.createSoftQueue (.ofParts 0 1) 0x800000 .multi .kernelDispatch (.ofParts 0 1) s =
      (.error (.queue (.ringSpace "system" 0x800000 (.tooLarge 0x20000000 0x10000000 "system"))),
        s) := by
  have opened : Ascending (.ofConfig .default) := .opened (c := .default) rfl
  have signalled := opened.step (.lasting (o := .createSignal 0 0 [])
    ⟨by decide, by decide, by decide⟩ ⟨nofun, nofun⟩)
  refine ⟨_, signalled, Prod.ext rfl ?_⟩
  have same : ∀ e t, (createSoftQueue (.ofParts 0 1) 0x800000 .multi .kernelDispatch
      (.ofParts 0 1)).run ((Operation.createSignal 0 0 []).perform (.ofConfig .default)) =
        (.error e, t) → t = (Operation.createSignal 0 0 []).perform (.ofConfig .default) :=
    fun e t refused => (unchanged_or_withdrawn _ refused).1.resolve_right id
  exact same _ _ rfl

/-- The default configuration on a host that has no thread to spare. -/
def threadless : Session :=
  (ofConfig .default).rehost { Host.fresh with threadFault := some "out of threads" }

/-- On a host that has no thread to spare, a queue is refused to the default graphics processor, and
yet the number 0 and the first handle of queues have been issued. -/
theorem withdrawn_changes : threadless.Hosted ∧ ∃ t,
    (createQueue (.ofParts 1 1) 64 .multi ⟨0, 0, true⟩).run threadless =
      (.error (.queue (.noThread "out of threads")), t) ∧ t ≠ threadless ∧
    t.nextQueueId = 1 ∧ threadless.nextQueueId = 0 ∧
    t.queues.nextHandle ≠ threadless.queues.nextHandle ∧
    t.signals.nextHandle ≠ threadless.signals.nextHandle := by
  have opened : Hosted (.ofConfig .default) := .opened (c := .default) rfl
  refine ⟨opened.rehost _, _, rfl, fun same => ?_, rfl, rfl, by decide, by decide⟩
  have number := congrArg Session.nextQueueId same
  cases number

end Request

end Accelerator
