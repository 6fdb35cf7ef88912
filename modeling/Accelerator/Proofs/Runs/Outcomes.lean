import Accelerator.Proofs.Grid.Footprints
import Accelerator.Proofs.Memory.Changes
import Accelerator.Proofs.Runs.Operation

/-!
# What operations come to

Agents, regions, soft queues and the memory map are kept account of. Routine of the application and
the steps of command processors leave all of it: they change bytes of memory, but hand out none.

So do the operations on code, which change nothing else. Every other operation comes to nothing,
because a check failed or because it took back what it had done so far, or it does all that it is
meant to do. This module says once what that is, as one list of effects; what is to be shown of all
operations is shown of these.

## A list to go through

There are nearly forty operations and a dozen effects. An invariant that has a lemma for each effect
holds of every operation, and an operation that is added needs one lemma here. The effects give the
session as an equation and not by some of its properties, since each invariant asks for others.

## Main definitions

* `Queue.stake`: what a queue has taken.
* `Session.SameAccounts`: nothing was handed out, and nothing was taken back.
* `Session.Effect`: what an operation comes to.

## Main results

* `Session.Routine.sameAccounts`, `Session.Move.sameAccounts`: routine and processors.
* `Session.effect_perform`: every operation that has not to do with code has one of these effects.
-/

namespace Accelerator

/-! ### Nothing handed out -/

/-- What a queue has taken: a place of an agent, and the memory of its ring. -/
structure Stake where
  agent : Option Handle
  ring : Option UInt64
  deriving DecidableEq

/-- What a queue has taken. -/
def Queue.stake (q : Queue) : Stake :=
  ⟨q.agent, q.ringAllocation⟩

namespace Session

open Accelerator.Action

variable {s t : Session} {touched : Handle → Prop} {h : Handle} {q : Queue} {p : Processor}

/-- Nothing was handed out, and nothing was taken back. -/
structure SameAccounts (s t : Session) : Prop where
  config : t.config = s.config
  isOpen : t.isOpen = s.isOpen
  agents : t.agents = s.agents
  regions : t.regions = s.regions
  softQueues : t.softQueues = s.softQueues
  stakes : t.queues.values.map Queue.stake = s.queues.values.map Queue.stake
  memory : s.memory.Refilled t.memory

namespace SameAccounts

theorem refl (s : Session) : s.SameAccounts s :=
  ⟨rfl, rfl, rfl, rfl, rfl, rfl, .refl _⟩

theorem trans {u : Session} (first : s.SameAccounts t) (second : t.SameAccounts u) :
    s.SameAccounts u where
  config := second.config.trans first.config
  isOpen := second.isOpen.trans first.isOpen
  agents := second.agents.trans first.agents
  regions := second.regions.trans first.regions
  softQueues := second.softQueues.trans first.softQueues
  stakes := second.stakes.trans first.stakes
  memory := first.memory.trans second.memory

end SameAccounts

theorem sameAccounts_modifyQueue (s : Session) (h : Handle) {f : Queue → Queue}
    (kept : ∀ q, (f q).stake = q.stake) : s.SameAccounts (s.modifyQueue h f) :=
  ⟨rfl, rfl, rfl, rfl, rfl, Arena.map_values_modify kept _ h, .refl _⟩

theorem stake_inactivate (q : Queue) : q.inactivate.stake = q.stake := by
  rw [Queue.inactivate]
  split <;> rfl

theorem Routine.sameAccounts (routine : s.Routine touched t) : s.SameAccounts t := by
  induction routine with
  | refl s => exact .refl s
  | trans _ _ first second => exact first.trans second
  | setSignal | dropSignal | tick => exact ⟨rfl, rfl, rfl, rfl, rfl, rfl, .refl _⟩
  | fill => exact ⟨rfl, rfl, rfl, rfl, rfl, rfl, _, rfl⟩
  | ring _ s f => exact s.sameAccounts_modifyQueue _ fun _ => rfl
  | inactivate _ s => exact s.sameAccounts_modifyQueue _ stake_inactivate

theorem Reloads.sameAccounts (reloads : s.Reloads t) : s.SameAccounts t := by
  obtain ⟨_, _, _, rfl⟩ := reloads
  exact ⟨rfl, rfl, rfl, rfl, rfl, rfl, .refl _⟩

theorem sameAccounts_runLaunch (s : Session) (l : Launch) : s.SameAccounts (s.runLaunch l).2 :=
  ⟨rfl, rfl, rfl, rfl, rfl, rfl, l.refilled_run _ _⟩

theorem sameAccounts_setProcessor (s : Session) (q : Queue) (p : Processor) :
    s.SameAccounts (s.setProcessor q p) :=
  s.sameAccounts_modifyQueue _ fun _ => rfl

theorem sameAccounts_failPacket (s : Session) (q : Queue) (p : Processor) (cause : Fault) :
    s.SameAccounts (s.failPacket q p cause) := by
  have marked := (s.sameAccounts_modifyQueue q.handle stake_inactivate).trans
    (sameAccounts_setProcessor _ q { p with state := .stopped })
  rw [failPacket]
  split
  · exact marked.trans ⟨rfl, rfl, rfl, rfl, rfl, rfl, .refl _⟩
  · exact marked

theorem sameAccounts_advance (s : Session) (q : Queue) (p : Processor) :
    s.SameAccounts (s.advance q p) := by
  have retired : s.SameAccounts _ :=
    s.sameAccounts_modifyQueue q.handle (f := (·.modifyRing (·.retire p.index))) fun _ => rfl
  rw [advance]
  split
  · exact retired.trans (sameAccounts_setProcessor _ q _)
  case h_2 next _ =>
    have moved := retired.trans (sameAccounts_modifyQueue _ q.handle
      (f := (·.modifyRing (·.setReadIndex next))) fun _ => rfl)
    exact moved.trans (sameAccounts_setProcessor _ q _)

/-- Command processors take packets, and nothing else. -/
theorem Move.sameAccounts {deeds : List Deed} (move : s.Move q p deeds t) : s.SameAccounts t := by
  cases move with
  | look | resume | leave | skip | hold | crash | pass => exact s.sameAccounts_setProcessor q _
  | run => exact (s.sameAccounts_runLaunch _).trans (sameAccounts_setProcessor _ q _)
  | panic => exact (s.sameAccounts_runLaunch _).trans (sameAccounts_failPacket _ q p _)
  | refuse | give | miss => exact s.sameAccounts_failPacket q p _
  | @complete completion =>
    have counted : s.SameAccounts (s.countDown completion) := by
      cases completion <;> exact ⟨rfl, rfl, rfl, rfl, rfl, rfl, .refl _⟩
    exact counted.trans (sameAccounts_advance _ q p)

/-! ### Operations -/

/-- The session after all queues have been taken out and torn down. -/
def withoutQueues (s : Session) : Session :=
  s.queues.values.foldl tearDown { s with queues := s.queues.drain Queue.destroy }

/-- The session after everything has been destroyed. -/
def ended (s : Session) : Session :=
  { { s.withoutQueues with
      signals := s.withoutQueues.signals.drain id
      executables := s.withoutQueues.executables.drain id
      kernels := [] }.releaseMemory with isOpen := false }

theorem queues_withoutQueues (s : Session) :
    s.withoutQueues.queues = s.queues.drain Queue.destroy :=
  (sameQueues_foldl sameQueues_tearDown s.queues.values _).queues

theorem queues_ended (s : Session) : s.ended.queues = s.queues.drain Queue.destroy :=
  (sameQueues_releaseMemory _).queues.trans s.queues_withoutQueues

/-- What an operation comes to: routine, or nothing at all if it is refused, or else all that it is
meant to do. -/
inductive Effect (s : Session) : Session → Prop where
  | routine {t : Session} {touched : Handle → Prop} (routine : s.Routine touched t) : Effect s t
  | createSignal {signal : Signal} (named : signal.handle = s.signals.nextHandle) :
      Effect s { s with signals := s.signals.insert signal }
  | allocate {h : Handle} {r : Region} {size start rounded : UInt64} {memory : Memory}
      (isOpen : s.isOpen = true) (live : s.regions.get? h = some r)
      (taken : s.memory.allocate r size r.info.alignment .application =
        .ok (start, rounded, memory)) :
      Effect s ({ s with memory }.modifyRegion r.handle (·.reserve rounded))
  | free {address : UInt64} {a : Allocation} {memory : Memory}
      (freed : s.memory.free address .application = .ok (a, memory)) :
      Effect s ({ s with memory }.releaseAllocation a)
  | assign {address : UInt64} {agent : Handle} {access : AccessPermission} {memory : Memory}
      (given : s.memory.assign s.isFineGrained address agent access = .ok memory) :
      Effect s { s with memory }
  | serve {size : Nat} {start : UInt64} {host : Host}
      (served : s.memory.host.allocate? size 1 = some (start, host)) :
      Effect s { s with memory := { s.memory with host } }
  /-- A range is registered once more, or once less. -/
  | register (address size : UInt64) (count : UInt32) :
      Effect s { s with memory := s.memory.setRegistrationCount address size count }
  /-- A hardware queue takes a place of its agent, a ring from the host, and a doorbell. -/
  | createQueue {h : Handle} {size : UInt32} {a : Agent} {base : UInt64} {host : Host}
      {type : QueueType} (placement : s.Placement h size type a base host)
      (options : QueueOptions) :
      Effect s (s.withHardwareQueue a (s.hardwareQueue a size type options base) host)
  /-- A hardware queue was made, but there is no thread for its command processor, so it gives back
  what it had taken. -/
  | withdrawQueue {h : Handle} {size : UInt32} {a : Agent} {base : UInt64} {host : Host}
      {type : QueueType} {options : QueueOptions} {q : Queue} {queues : Directory Queue}
      (placement : s.Placement h size type a base host)
      (made : q = s.hardwareQueue a size type options base)
      (removed : (s.queues.insert q).remove s.queues.nextHandle Queue.destroy =
        some (q.destroy, queues)) :
      Effect s ({ s.withHardwareQueue a q host with queues }.tearDown q.destroy)
  /-- A soft queue takes a place of the session, and memory of a region for its ring. -/
  | createSoftQueue {h : Handle} {r : Region} {q : Queue} {bytes start rounded : UInt64}
      {memory : Memory} (isOpen : s.isOpen = true) (live : s.regions.get? h = some r)
      (room : s.softQueues < s.config.softQueueCapacity)
      (taken : s.memory.allocate r bytes (.ofNat Packet.alignment) .queueRing =
        .ok (start, rounded, memory))
      (stake : q.stake = ⟨none, some start⟩) (idle : q.processor = none) (sized : q.ring.IsSized)
      (active : q.state = .active) (numbered : q.id = s.nextQueueId) :
      Effect s { s.modifyRegion r.handle (·.reserve rounded) with
        softQueues := s.softQueues + 1
        memory
        queues := s.queues.insert q
        nextQueueId := s.nextQueueId + 1 }
  | destroyQueue {h : Handle} {q : Queue} {queues : Directory Queue}
      (removed : s.queues.remove h Queue.destroy = some (q, queues)) :
      Effect s ({ s with queues }.tearDown q)
  | shutDown : Effect s s.ended

theorem Effect.nothing : s.Effect s :=
  .routine (.refl s : s.Routine (fun _ => False) s)

theorem Effect.of_eq (same : t = s) : s.Effect t :=
  same ▸ .nothing

/-- A check that fails ends an action with nothing done; otherwise the rest of it decides. -/
theorem effect_bind {α β : Type} {x : Action α} {f : α → Action β} (looks : Keeps Eq x)
    (rest : ∀ a, x s = (.ok a, s) → s.Effect (f a s).2) : s.Effect ((x >>= f) s).2 :=
  cases_bind (P := fun after => s.Effect after.2) looks (fun _ => .nothing) rest

/-! ### Memory -/

theorem allocateFrom_eq_ok {r : Region} {size alignment start rounded : UInt64}
    {usage : AllocationUse}
    (taken : s.allocateFrom r size alignment usage = .ok (start, rounded, t)) :
    ∃ memory, s.memory.allocate r size alignment usage = .ok (start, rounded, memory) ∧
      t = { s with memory }.modifyRegion r.handle (·.reserve rounded) := by
  rw [allocateFrom] at taken
  cases answer : s.memory.allocate r size alignment usage with
  | error cause =>
    rw [answer] at taken
    cases taken
  | ok block =>
    rw [answer] at taken
    cases taken
    exact ⟨_, rfl, rfl⟩

theorem effect_allocate (h : Handle) (size : UInt64) (s : Session) :
    s.Effect (allocate h size s).2 := by
  refine effect_bind (keeps_region h) fun r found => ?_
  rw [bind_apply, session_apply]
  dsimp only
  cases taken : s.allocateFrom r size r.info.alignment .application with
  | error cause => exact .nothing
  | ok block =>
    obtain ⟨start, rounded, t⟩ := block
    obtain ⟨memory, answer, rfl⟩ := allocateFrom_eq_ok taken
    obtain ⟨isOpen, live, -⟩ := region_eq_ok found
    exact .allocate isOpen live answer

theorem freeBlock_cases (address : UInt64) (usage : AllocationUse) (s : Session) :
    (∃ e, s.memory.free address usage = .error e) ∧ (freeBlock address usage s).2 = s ∨
      ∃ a memory, s.memory.free address usage = .ok (a, memory) ∧
        (freeBlock address usage s).2 = { s with memory }.releaseAllocation a := by
  rw [freeBlock, bind_apply, session_apply]
  dsimp only
  cases freed : s.memory.free address usage with
  | error cause => exact .inl ⟨⟨cause, rfl⟩, rfl⟩
  | ok found =>
    obtain ⟨a, memory⟩ := found
    exact .inr ⟨a, memory, rfl, rfl⟩

theorem effect_free (address : UInt64) (s : Session) : s.Effect (free address s).2 := by
  refine effect_bind keeps_ensureOpen fun _ _ => ?_
  rcases freeBlock_cases address .application s with ⟨-, same⟩ | ⟨a, memory, freed, same⟩
  · rw [same]
    exact .nothing
  · rw [same]
    exact .free freed

theorem effect_assign (address : UInt64) (h : Handle) (access : AccessPermission) (s : Session) :
    s.Effect (assign address h access s).2 := by
  refine effect_bind (keeps_agent h) fun a _ => ?_
  rw [bind_apply, session_apply]
  dsimp only
  cases given : s.memory.assign s.isFineGrained address a.handle access with
  | error cause => exact .nothing
  | ok memory => exact .assign given

theorem effect_takeHostBlock (size : Nat) (s : Session) :
    s.Effect ((Operation.takeHostBlock size).perform s) := by
  rw [Operation.perform, hostBlock?]
  cases served : s.memory.host.allocate? size 1 with
  | none => exact .nothing
  | some block => exact .serve served

theorem effect_register (address size : UInt64) (s : Session) :
    s.Effect (register address size s).2 := by
  refine effect_bind keeps_ensureOpen fun _ _ => ?_
  rw [bind_apply, session_apply]
  dsimp only
  cases registered : s.memory.register address size with
  | error cause => exact .nothing
  | ok memory =>
    obtain ⟨-, -, -, -, rfl⟩ := Memory.register_eq_ok.mp registered
    exact .register address size _

theorem effect_deregister (address size : UInt64) (s : Session) :
    s.Effect (deregister address size s).2 := by
  refine effect_bind keeps_ensureOpen fun _ _ => ?_
  rw [bind_apply, session_apply]
  dsimp only
  cases dropped : s.memory.deregister address size with
  | error cause => exact .nothing
  | ok memory =>
    obtain ⟨-, rfl⟩ := Memory.deregister_eq_ok.mp dropped
    exact .register address size _

/-! ### Signals -/

theorem effect_createSignal (initial : Int64) (count : UInt32) (consumers : List Handle)
    (s : Session) : s.Effect (createSignal initial count consumers s).2 := by
  refine effect_bind keeps_ensureOpen fun _ _ => effect_bind (keeps_require _ _) fun _ _ =>
    effect_bind (keeps_forM (fun h => (keeps_agent h).discard) _) fun _ _ => ?_
  exact .createSignal rfl

/-! ### Queues -/

theorem effect_createQueue (room : s.HasRoom) (wf : s.queues.WellFormed Queue.handle)
    (h : Handle) (size : UInt32) (type : QueueType) (options : QueueOptions) :
    s.Effect (createQueue h size type options s).2 := by
  rcases createQueue_cases h size type options s with
    ⟨e, refused⟩ | ⟨a, base, host, placement, made | ⟨-, reason, -, withdrawn⟩⟩
  · rw [refused]
    exact .nothing
  · rw [made]
    exact .createQueue placement options
  · obtain ⟨queues, removed, same⟩ := withdrawQueue_eq wf room.2.1 a host
      (rfl : (s.hardwareQueue a size type options base).handle = _)
    rw [withdrawn, same]
    exact .withdrawQueue placement rfl removed

theorem effect_createSoftQueue (regionHandle : Handle) (size : UInt32) (type : QueueType)
    (features : Features) (doorbell : Handle) (s : Session) :
    s.Effect (createSoftQueue regionHandle size type features doorbell s).2 := by
  refine effect_bind keeps_ensureOpen fun _ _ => effect_bind (keeps_require _ _) fun _ sized =>
    effect_bind (keeps_require _ _) fun _ _ => effect_bind (keeps_require _ _) fun _ _ =>
    effect_bind (keeps_region _) fun r found => effect_bind (keeps_signal _) fun _ _ =>
    effect_bind keeps_session fun _ first => effect_bind keeps_session fun _ second =>
    effect_bind (keeps_require _ _) fun _ roomy => ?_
  cases first
  cases second
  have room := of_decide_eq_true (require_eq_ok.mp roomy).1
  obtain ⟨isOpen, live, -⟩ := region_eq_ok found
  rw [bind_apply, change_apply]
  dsimp only
  rw [bind_apply, session_apply]
  dsimp only
  cases taken : allocateFrom _ r (PacketRing.storageBytes size) (.ofNat Packet.alignment)
    .queueRing with
  | error cause =>
    have same : s.softQueues + 1 - 1 = s.softQueues := by simp
    exact .of_eq (congrArg (fun softQueues => { s with softQueues }) same)
  | ok block =>
    obtain ⟨start, rounded, t⟩ := block
    obtain ⟨memory, answer, rfl⟩ := allocateFrom_eq_ok taken
    exact .createSoftQueue isOpen live room answer rfl rfl
      (PacketRing.isSized_ofSize (of_decide_eq_true (require_eq_ok.mp sized).1)) rfl rfl

theorem effect_destroyQueue (h : Handle) (s : Session) : s.Effect (destroyQueue h s).2 := by
  refine effect_bind keeps_ensureOpen fun _ _ => ?_
  rw [bind_apply, session_apply]
  dsimp only
  cases removed : s.queues.remove h Queue.destroy with
  | none => exact .nothing
  | some found => exact .destroyQueue removed

theorem shutDown_of_open (isOpen : s.isOpen = true) : (shutDown s).2 = s.ended := by
  have opened : ensureOpen s = (.ok (), s) := ensureOpen_eq_ok.mpr ⟨isOpen, rfl⟩
  rw [shutDown, bind_apply, opened]
  rfl

theorem effect_shutDown (s : Session) : s.Effect (shutDown s).2 := by
  cases isOpen : s.isOpen with
  | true => exact shutDown_of_open isOpen ▸ .shutDown
  | false => exact .of_eq (shutDown_of_closed isOpen)

/-! ### Whatever the application does -/

/-- Every operation that has not to do with code has one of these effects. -/
theorem effect_perform (room : s.HasRoom) (wf : s.queues.WellFormed Queue.handle) {o : Operation}
    (other : ¬ o.LoadsCode) : s.Effect (o.perform s) := by
  cases o with
  | createSignal initial count consumers => exact effect_createSignal initial count consumers s
  | allocate region size => exact effect_allocate region size s
  | free address => exact effect_free address s
  | assign address agent access => exact effect_assign address agent access s
  | takeHostBlock size => exact effect_takeHostBlock size s
  | register address size => exact effect_register address size s
  | deregister address size => exact effect_deregister address size s
  | createQueue agent size type options => exact effect_createQueue room wf agent size type options
  | createSoftQueue region size type features doorbell =>
    exact effect_createSoftQueue region size type features doorbell s
  | destroyQueue h => exact effect_destroyQueue h s
  | shutDown => exact effect_shutDown s
  | createExecutable | loadCode | freezeExecutable | destroyExecutable =>
    exact (other trivial).elim
  | _ =>
    refine .routine (routine_perform wf ?_)
    trivial

/-- An operation changes code only, or has one of the effects. -/
theorem reloads_or_effect (room : s.HasRoom) (wf : s.queues.WellFormed Queue.handle)
    (o : Operation) : s.Reloads (o.perform s) ∨ s.Effect (o.perform s) :=
  (em o.LoadsCode).imp reloads_perform (effect_perform room wf)

end Session

end Accelerator
