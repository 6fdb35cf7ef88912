import Accelerator.Proofs.Accounts.Balance
import Accelerator.Proofs.Runs.Calls
import Accelerator.Proofs.Runs.Refusals

/-!
# After shutting down

Shutting down is final. Whatever is asked for afterwards fails, since a session that is not open is
noticed before anything else is; only a reservation and a barrier have their arguments looked at
before that. Nothing changes any more but the time, and the memory that the host hands out to the
application itself.

## Why calls are listed

That everything fails is a statement about all calls, so they have to be listed, those that only
look included. Going on with a call that had to wait is left out, since it was called before. Two
calls look at their arguments first, and `Call.malformed?` says so; nothing else is excepted.

## Main definitions

* `Call`, `Call.run`: what can be called in a session, by the type of the answer.
* `Session.Idles`: only time has passed, and the host has handed out memory.
* `Session.Over`: nothing is left in a session.

## Main results

* `Call.run_of_closed`: every call in a session that is not open fails and changes nothing.
* `Session.Hosted.shutDown_final`: a session that was shut down is over for good.
* `Session.refuses_arguments_after_end`: a call that fails with something else.
-/

namespace Accelerator

open Session Accelerator.Action

/-! ### Calls -/

/-- Going on with something that was asked for before. -/
def Request.Resumes {α : Type} : Request α → Prop
  | resumeWait _ => True
  | _ => False

/-- What can be called in a session, by the type of the answer: requests, calls on queues that
somebody holds on to, and looking things up. -/
inductive Call : Type → Type 1 where
  | request {α : Type} (r : Request α) (fresh : ¬ r.Resumes) : Call α
  | queue {α : Type} (h : Handle) (c : QueueCall α) : Call α
  | timestamp : Call UInt64
  | agent (h : Handle) : Call Agent
  | regionsOf (h : Handle) : Call (List Region)
  | region (h : Handle) : Call Region
  | signal (h : Handle) : Call Signal
  | findQueue (h : Handle) : Call Queue
  | executable (h : Handle) : Call Executable
  | symbol (h : Handle) (name : String) (agent : Handle) : Call Symbol
  /-- The same, asked of an executable that somebody holds on to. -/
  | heldSymbol (h : Handle) (name : String) (agent : Handle) : Call Symbol
  | symbols (h : Handle) : Call (List Symbol)
  | regionOf (address : UInt64) : Call (Option Handle)
  | allocationInfo (address : UInt64) : Call (Option Allocation)
  | isAccessible (address size : UInt64) : Call Bool
  | readMemory (address size : UInt64) : Call (List UInt8)

namespace Action

variable {α β : Type} {x : Action α} {f : α → Action β}

/-- An action that looks first whether the session is open. -/
def Guarded (x : Action α) : Prop :=
  ∀ s : Session, s.isOpen = false → x s = (.error .notInitialized, s)

theorem Guarded.bind (guarded : Guarded x) : Guarded (x >>= f) :=
  fun s closed => bind_of_error (guarded s closed)

theorem guarded_ensureOpen : Guarded ensureOpen := fun s closed => by
  simp [ensureOpen, bind_apply, require, closed]

theorem guarded_agent (h : Handle) : Guarded (Session.agent h) :=
  guarded_ensureOpen.bind

theorem guarded_region (h : Handle) : Guarded (Session.region h) :=
  guarded_ensureOpen.bind

theorem guarded_signal (h : Handle) : Guarded (Session.signal h) :=
  guarded_ensureOpen.bind

theorem guarded_queue (h : Handle) : Guarded (Session.queue h) :=
  guarded_ensureOpen.bind

theorem guarded_placeQueue (h : Handle) (size : UInt32) (type : QueueType)
    (options : QueueOptions) : Guarded (Session.placeQueue h size type options) :=
  (guarded_agent h).bind

theorem guarded_executable (h : Handle) : Guarded (Session.executable h) :=
  guarded_ensureOpen.bind

end Action

/-- A request in a session that is not open is refused. -/
theorem Request.guarded {α : Type} (r : Request α) (fresh : ¬ r.Resumes) : r.run.Guarded := by
  cases r with
  | createSignal | destroySignal | createSoftQueue | destroyQueue | free | register | deregister
  | writeMemory | copyMemory | createExecutable | destroyExecutable | shutDown =>
    exact guarded_ensureOpen.bind
  | loadSignal | storeSignal | updateSignal | wait => exact (guarded_signal _).bind
  | createQueue => exact (guarded_placeQueue _ _ _ _).bind
  | assign => exact (guarded_agent _).bind
  | inactivateQueue => exact (guarded_queue _).bind
  | allocate => exact (guarded_region _).bind
  | loadCode | freezeExecutable => exact (guarded_executable _).bind
  | resumeWait => exact absurd trivial fresh

namespace Call

variable {α : Type} {s : Session}

/-- The action of a call. -/
def run : Call α → Action α
  | request r _ => r.run
  | queue h c => c.run h
  | timestamp => Session.timestamp
  | agent host => Session.agent host
  | regionsOf h => Session.regionsOf h
  | region h => Session.region h
  | signal h => Session.signal h
  | findQueue h => Session.queue h
  | executable h => Session.executable h
  | symbol h name host => Session.symbol h name host
  | heldSymbol h name host => Session.heldSymbol h name host
  | symbols h => Session.symbols h
  | regionOf address => Session.regionOf address
  | allocationInfo address => Session.allocationInfo address
  | isAccessible address size => Session.isAccessible address size
  | readMemory address size => Session.readMemory address size

/-- A queue is called by those who hold on to it. -/
def OnHeld : Call α → Session → Prop
  | queue h _, s => ∃ q, s.heldQueue? h = some q
  | _, _ => True

/-- What is wrong with the arguments of a call, if that is looked at first. -/
def malformed? : Call α → Session → Option Fault
  | queue h c, s => (s.heldQueue? h).bind c.malformed?
  | _, _ => none

/-- A call in a session that is not open fails, and changes nothing. -/
theorem run_of_closed (c : Call α) (closed : s.isOpen = false)
    (sized : ∀ h q, s.heldQueue? h = some q → q.ring.IsSized) (held : c.OnHeld s) :
    c.run s = (.error ((c.malformed? s).getD .notInitialized), s) := by
  cases c with
  | request r fresh => exact r.guarded fresh s closed
  | queue h c =>
    obtain ⟨q, held⟩ := held
    have answer := c.run_of_missing (.inl closed) held (sized h q held)
    rw [queueFault, if_neg (by simp [closed])] at answer
    rw [run, answer, malformed?, held, Option.bind_some]
  | timestamp | heldSymbol | regionOf | allocationInfo | isAccessible | readMemory =>
    exact guarded_ensureOpen.bind s closed
  | agent => exact guarded_agent _ s closed
  | regionsOf => exact (guarded_agent _).bind s closed
  | region => exact guarded_region _ s closed
  | signal => exact guarded_signal _ s closed
  | findQueue => exact guarded_queue _ s closed
  | executable => exact guarded_executable _ s closed
  | symbol | symbols => exact (guarded_executable _).bind s closed

end Call

/-! ### Operations -/

namespace Action

variable {α β : Type} {x : Action α} {f : α → Action β} {s : Session}

/-- In a session the action fails, and changes nothing. -/
def Fails (x : Action α) (s : Session) : Prop :=
  ∃ e, x s = (.error e, s)

theorem Guarded.fails (guarded : Guarded x) (closed : s.isOpen = false) : x.Fails s :=
  ⟨_, guarded s closed⟩

theorem Fails.bind (fails : x.Fails s) : (x >>= f).Fails s := by
  obtain ⟨e, failed⟩ := fails
  exact ⟨e, bind_of_error failed⟩

/-- Something that only looks may come first. -/
theorem fails_bind (looks : Keeps Eq x) (rest : ∀ a, (f a).Fails s) : (x >>= f).Fails s := by
  rcases looks.answers s with ⟨a, found⟩ | ⟨e, missing⟩
  · obtain ⟨e, failed⟩ := rest a
    exact ⟨e, (bind_of_ok found).trans failed⟩
  · exact ⟨e, bind_of_error missing⟩

theorem Fails.unchanged (fails : x.Fails s) : (x s).2 = s := by
  obtain ⟨e, failed⟩ := fails
  rw [failed]

end Action

namespace Session

variable {s t u : Session} {h : Handle}

section Closed

variable (closed : s.isOpen = false)
include closed

theorem addWriteIndex_fails (count : UInt64) (order : MemoryOrder) :
    (addWriteIndex h count order).Fails s :=
  (guarded_queue h).bind.bind.fails closed

theorem reserve_fails (count : UInt64) : (reserve h count).Fails s :=
  fails_bind keeps_session fun _ => fails_bind (keeps_demand _ _) fun _ =>
    fails_bind (keeps_require _ _) fun _ => (addWriteIndex_fails closed count _).bind

theorem submit_fails (parcel : Parcel) : (submit h parcel).Fails s :=
  (reserve_fails closed 1).bind

theorem resumeSubmit_of_closed (w : Submission) : (resumeSubmit w s).2 = s := by
  have looks : Keeps Eq (resumeReserve w.reservation) :=
    keeps_session.bind fun _ => (keeps_demand _ _).bind fun q => by
      split
      · exact (keeps_require _ _).bind fun _ => keeps_pure _
      · exact keeps_pure _
  rw [resumeSubmit]
  rcases looks.answers s with ⟨progress, found⟩ | ⟨e, missing⟩
  · rw [bind_of_ok found]
    cases progress with
    | done index =>
      have fails : (deliver w.reservation.queue index w.parcel).Fails s :=
        ((guarded_queue _).bind.bind).fails closed
      exact fails.bind.unchanged
    | waiting | overflowed => rfl
  · rw [bind_of_error missing]

end Closed

/-- Only time has passed, and the host has handed out memory to the application itself. -/
def Idles (s t : Session) : Prop :=
  ∃ clock host, t = { s with clock, memory := { s.memory with host } }

instance : IsPreorder Session Idles where
  refl s := ⟨s.clock, s.memory.host, rfl⟩
  trans _ _ _ first second := by
    obtain ⟨_, _, rfl⟩ := first
    obtain ⟨_, _, rfl⟩ := second
    exact ⟨_, _, rfl⟩

theorem idles_of_eq (same : t = s) : s.Idles t :=
  same ▸ refl_of Idles s

/-- Nothing is left: the session is not open, no object is found any more, no memory is handed out
or registered, and nothing is counted. -/
structure Over (s : Session) : Prop where
  closed : s.isOpen = false
  signals : ∀ h, s.signals.get? h = none
  queues : ∀ h, s.queues.get? h = none
  executables : ∀ h, s.executables.get? h = none
  kernels : s.kernels = []
  allocations : s.memory.allocations = []
  registrations : s.memory.registrations = []
  cleared : s.Cleared

theorem Over.idles (ceased : s.Over) (idles : s.Idles t) : t.Over := by
  obtain ⟨_, _, rfl⟩ := idles
  obtain ⟨agents, softQueues, regions, liveAllocations⟩ := ceased.cleared
  exact ⟨ceased.closed, ceased.signals, ceased.queues, ceased.executables, ceased.kernels,
    ceased.allocations, ceased.registrations, agents, softQueues, regions, liveAllocations⟩

/-- Where nothing is handed out or registered, nothing can be accessed. -/
theorem Over.isAccessible (ceased : s.Over) (address len : UInt64) :
    s.memory.isAccessible address len = false := by
  simp [Memory.isAccessible, Memory.overlapping, Memory.preceding?, Memory.isRegistered,
    ceased.allocations, ceased.registrations]

theorem Over.readBytes? (ceased : s.Over) (address len : UInt64) :
    s.memory.readBytes? address len = none := by
  rw [Memory.readBytes?, ceased.isAccessible]
  rfl

theorem Over.writeBytes? (ceased : s.Over) (address : UInt64) (bs : List UInt8) :
    s.memory.writeBytes? address bs = none := by
  rw [Memory.writeBytes?, ceased.isAccessible]
  rfl

theorem Over.fetchAdd? (ceased : s.Over) (width : Nat) (address : UInt64) (amount : Nat) :
    s.memory.fetchAdd? width address amount = none := by
  have none : s.memory.alignedWord? width address = none := by
    rw [Memory.alignedWord?, ceased.readBytes?]
    split <;> rfl
  rw [Memory.fetchAdd?, none]

/-- Whatever the application does, only time passes, and the host hands out memory. -/
theorem Over.idles_perform (ceased : s.Over) (o : Operation) : s.Idles (o.perform s) := by
  have closed := ceased.closed
  have request : ∀ {α : Type} (r : Request α), ¬ r.Resumes → s.Idles (r.run s).2 :=
    fun r fresh => idles_of_eq ((r.guarded fresh).fails closed).unchanged
  have queue : ∀ {α : Type} (f : Queue → Action α) (h : Handle),
      s.Idles ((Session.queue h >>= f) s).2 :=
    fun f h => idles_of_eq ((guarded_queue h).bind.fails closed).unchanged
  cases o with
  | advanceTo tick => exact ⟨_, _, rfl⟩
  | takeHostBlock size =>
    rw [Operation.perform, hostBlock?]
    cases s.memory.host.allocate? size 1 with
    | none => exact refl_of Idles s
    | some block => exact ⟨_, _, rfl⟩
  | store address bs =>
    rw [Operation.perform, ceased.writeBytes?]
    exact refl_of Idles s
  | fetchAdd width address amount =>
    rw [Operation.perform, ceased.fetchAdd?]
    exact refl_of Idles s
  | createSignal initial count consumers => exact request (.createSignal initial count consumers) id
  | destroySignal h => exact request (.destroySignal h) id
  | storeSignal h value order => exact request (.storeSignal h value order) id
  | updateSignal h update order => exact request (.updateSignal h update order) id
  | allocate region size => exact request (.allocate region size) id
  | free address => exact request (.free address) id
  | assign address agent access => exact request (.assign address agent access) id
  | register address size => exact request (.register address size) id
  | deregister address size => exact request (.deregister address size) id
  | writeMemory address bs => exact request (.writeMemory address bs) id
  | copyMemory target source size => exact request (.copyMemory target source size) id
  | createExecutable => exact request .createExecutable id
  | loadCode h agent code => exact request (.loadCode h agent code) id
  | freezeExecutable h => exact request (.freezeExecutable h) id
  | destroyExecutable h => exact request (.destroyExecutable h) id
  | createQueue agent size type options => exact request (.createQueue agent size type options) id
  | createSoftQueue region size type features doorbell =>
    exact request (.createSoftQueue region size type features doorbell) id
  | inactivateQueue h => exact request (.inactivateQueue h) id
  | destroyQueue h => exact request (.destroyQueue h) id
  | shutDown => exact request .shutDown id
  | storeReadIndex h | writePacket h | publish h | ringDoorbell h => exact queue _ h
  | storeWriteIndex h | compareAndSwapWriteIndex h | addWriteIndex h =>
    exact idles_of_eq ((guarded_queue h).bind.bind.fails closed).unchanged
  | tryNext h => exact idles_of_eq ((guarded_queue h).bind.bind.fails closed).unchanged
  | process h ends =>
    have refused : Session.consumer h s = (.error .notInitialized, s) :=
      (guarded_queue h).bind s closed
    rw [Operation.perform, refused]
    exact refl_of Idles s
  | reserve h count => exact idles_of_eq (reserve_fails closed count).unchanged
  | submit h parcel => exact idles_of_eq (submit_fails closed parcel).unchanged
  | barrierAnd h dependencies completion =>
    have fails : (Session.barrierAnd h dependencies completion).Fails s :=
      fails_bind (keeps_require _ _) fun _ => submit_fails closed _
    exact idles_of_eq fails.unchanged
  | resumeSubmit w => exact idles_of_eq (resumeSubmit_of_closed closed w)

/-- Whatever happens, only time passes, and the host hands out memory. -/
theorem Over.later (ceased : s.Over) (later : s.Later t) : s.Idles t := by
  induction later with
  | refl => exact refl_of Idles s
  | tail _ next idles =>
    have still := ceased.idles idles
    cases next with
    | rehost _ host => exact trans_of Idles idles ⟨_, host, rfl⟩
    | step step =>
      cases step with
      | application => exact trans_of Idles idles (still.idles_perform _)
      | processor live => cases (still.queues _).symm.trans live

/-! ### Shutting down -/

theorem isOpen_of_shutDown (ended : shutDown s = (.ok (), t)) : s.isOpen = true ∧ t = s.ended := by
  have isOpen : s.isOpen = true := by
    cases shut : s.isOpen with
    | true => rfl
    | false => cases (guarded_ensureOpen.bind s shut).symm.trans ended
  exact ⟨isOpen, (congrArg Prod.snd ended).symm.trans (shutDown_of_open isOpen)⟩

theorem Hosted.over_ended (hosted : s.Hosted) (isOpen : s.isOpen = true) : s.ended.Over := by
  have kept : s.ended.Kept := shutDown_of_open isOpen ▸ hosted.kept.shutDown
  have closed : s.ended.isOpen = false := rfl
  refine ⟨closed, ?_, fun h => ?_, ?_, ?_, (kept.closed closed).2, ?_, kept.cleared closed⟩
  · rw [ended, releaseMemory_eq]
    exact Directory.get?_drain _ _
  · rw [queues_ended]
    exact Directory.get?_drain ..
  all_goals rw [ended, releaseMemory_eq]
  · exact Directory.get?_drain _ _
  · rfl

/-- A session that was shut down is over, and stays so: whatever happens afterwards, only time
passes, and the host hands out memory to the application itself. No memory can be accessed, and
every call fails with the fault that the session is not open, and changes nothing. Only a
reservation of no slots, or of more than the ring has, and a barrier with too many signals fail with
the fault of their arguments. -/
theorem Hosted.shutDown_final (hosted : s.Hosted) (ended : shutDown s = (.ok (), t))
    (later : t.Later u) :
    u.Over ∧ t.Idles u ∧
      (∀ {α : Type} (c : Call α), c.OnHeld u →
        c.run u = (.error ((c.malformed? u).getD .notInitialized), u)) ∧
      (∀ address len, u.memory.isAccessible address len = false ∧
        u.memory.readBytes? address len = none) ∧
      (∀ address bs, u.memory.writeBytes? address bs = none) ∧
      ∀ width address amount, u.memory.fetchAdd? width address amount = none := by
  obtain ⟨isOpen, rfl⟩ := isOpen_of_shutDown ended
  have idles := (hosted.over_ended isOpen).later later
  have ceased := (hosted.over_ended isOpen).idles idles
  have sized : ∀ h q, u.heldQueue? h = some q → q.ring.IsSized := by
    obtain ⟨_, _, rfl⟩ := idles
    intro h q held
    have coherent := (queuesAge_ended hosted.wellFormed h).coherent (q := q) held
      fun _ before => hosted.coherent before
    exact coherent.sized
  exact ⟨ceased, idles, fun c held => c.run_of_closed ceased.closed sized held,
    fun address len => ⟨ceased.isAccessible address len, ceased.readBytes? address len⟩,
    ceased.writeBytes?, ceased.fetchAdd?⟩

/-- A queue of the graphics processor, with 64 slots, is still held when the session has been shut
down. -/
theorem held_after_end : ∃ (s t : Session) (q : Queue), s.Ascending ∧ shutDown s = (.ok (), t) ∧
    t.heldQueue? (.ofParts 0 1) = some q ∧ q.size = 64 := by
  have opened : Ascending (.ofConfig .default) := .opened (c := .default) rfl
  have queued := opened.step
    (.lasting (o := .createQueue (.ofParts 1 1) 64 .multi ⟨0, 0, true⟩)
      ⟨by decide, by decide, by decide⟩ ⟨nofun, nofun⟩)
  obtain ⟨s, ascending, isOpen, q, held, size⟩ : ∃ s : Session, s.Ascending ∧ s.isOpen = true ∧
      ∃ q, s.heldQueue? (.ofParts 0 1) = some q ∧ q.size = 64 :=
    ⟨_, queued, rfl, _, rfl, rfl⟩
  have opened : ensureOpen s = (.ok (), s) := ensureOpen_eq_ok.mpr ⟨isOpen, rfl⟩
  have ran : shutDown s = (.ok (), (shutDown s).2) := by
    rw [shutDown, bind_of_ok opened]
    rfl
  obtain ⟨-, q', after, rfl | ⟨-, rfl⟩⟩ := held_shutDown ascending.hosted.wellFormed.queues held
  · exact ⟨s, _, q', ascending, ran, after, size⟩
  · exact ⟨s, _, q.destroy, ascending, ran, after, size⟩

/-- A reservation of one slot of that queue is refused. -/
theorem shutDown_final_held : ∃ (s t : Session) (q : Queue), s.Hosted ∧
    shutDown s = (.ok (), t) ∧ t.heldQueue? (.ofParts 0 1) = some q ∧ t.Over ∧
    reserve (.ofParts 0 1) 1 t = (.error .notInitialized, t) := by
  obtain ⟨s, t, q, ascending, ended, held, size⟩ := held_after_end
  obtain ⟨ceased, -, calls, -⟩ := ascending.hosted.shutDown_final ended .refl
  have answer := calls (.queue (.ofParts 0 1) (.reserve 1)) ⟨q, held⟩
  rw [Call.malformed?, held, Option.bind_some, QueueCall.malformed?, size] at answer
  exact ⟨s, t, q, ascending.hosted, ended, held, ceased, answer⟩

/-- A reservation of no slots of that queue does not fail with the fault that the session is not
open, and neither does a barrier with six signals. -/
theorem refuses_arguments_after_end : ∃ (s t : Session) (q : Queue), s.Ascending ∧
    shutDown s = (.ok (), t) ∧ t.heldQueue? (.ofParts 0 1) = some q ∧
    reserve (.ofParts 0 1) 0 t = (.error (.argument (.reservation 0 64)), t) ∧
    (reserve (.ofParts 0 1) 0 t).1 ≠ .error .notInitialized ∧
    barrierAnd (.ofParts 0 1) (.replicate 6 .null) none t =
      (.error (.argument (.dependencies 6)), t) := by
  obtain ⟨s, t, q, ascending, ended, held, size⟩ := held_after_end
  have refused : reserve (.ofParts 0 1) 0 t = (.error (.argument (.reservation 0 q.size)), t) := by
    have found : demand (t.heldQueue? (.ofParts 0 1)) (.invalidQueue (.ofParts 0 1)) t =
        (.ok q, t) := by
      rw [held]
      rfl
    rw [reserve, bind_of_ok (session_apply t), bind_of_ok found]
    rfl
  rw [size] at refused
  refine ⟨s, t, q, ascending, ended, held, refused, ?_, rfl⟩
  rw [refused]
  intro same
  cases same

end Session

end Accelerator
