import Accelerator.Proofs.Runs.Queues
import Accelerator.Session.Processing

/-!
# The moves of a command processor

A command processor takes one step at a time. This module says once what a step can be, and what it
leaves behind; everything else that is proved of command processors starts from here.

A step is noted by what it does with the packet at the processor's index: the kernel of the packet
is run, the packet is completed, or it fails. All other steps only change what the processor is
doing.

## Cases that say everything

Each case of `Session.Move` carries what the step had found out: the state of the processor, what
the slot showed, and that nothing was launched where nothing was run. An invariant needs one or two
of these facts, and if one were missing it would have to open the step again. That the cases are all
there are is shown once, one lemma for each state of a processor.

## Main definitions

* `Deed`: what is done with a packet.
* `Slot.completion?`, `Slot.dispatch`: the completion signal of a packet, and the packet as a
  kernel dispatch.
* `Session.Launches`: the packet of an index comes to a launch.
* `Session.Move`: the steps of a command processor, with what they do.

## Main results

* `Session.Move.of_stepProcessor?`: these are the steps.
* `Session.Move.acts`: what a step changes apart from the queue.
* `Session.Move.changes`: a step touches the processor's own queue only.
-/

namespace Accelerator

/-- What a command processor does with a packet. -/
inductive Deed where
  /-- The kernel of the packet is run over its grid. -/
  | ran (index : UInt64) (launch : Launch)
  /-- The packet is complete: the signal, if any, is counted down, the slot is given back, and the
  read index moves on. -/
  | completed (index : UInt64) (signal : Option Handle)
  /-- The packet failed. -/
  | failed (index : UInt64) (cause : Fault)

/-- The index of the packet. -/
def Deed.index : Deed → UInt64
  | ran index _ | completed index _ | failed index _ => index

/-- The completion signal of a packet, if any, is counted down by 1. -/
def Session.countDown (s : Session) (completion : Option Handle) : Session :=
  match completion with
  | none => s
  | some h => s.modifySignal h fun signal =>
      signal.setValue ((Signal.Update.subtract 1).apply signal.value)

/-- What a deed does, apart from the queue and from what the application is told. -/
def Deed.act (s : Session) : Deed → Session
  | ran _ l => (s.runLaunch l).2
  | completed _ signal => s.countDown signal
  | failed _ _ => s

/-- The completion signal of a packet; the handle 0 stands for none. -/
def Slot.completion? (slot : Slot) : Option Handle :=
  if slot.completionSignal = 0 then none else some ⟨slot.completionSignal⟩

/-- The packet in a slot, read as a kernel dispatch. -/
def Slot.dispatch (slot : Slot) : KernelDispatch :=
  .ofBytes slot.bytes

namespace Session

variable {s t : Session} {q : Queue} {p : Processor} {index : UInt64} {word : UInt32}

/-! ### What examining a packet comes to -/

/-- The packet of an index is a kernel dispatch whose completion signal can be found, and which
comes to a launch on the agent of the queue. -/
structure Launches (s : Session) (q : Queue) (index : UInt64) (word : UInt32) (l : Launch) :
    Prop where
  type : (Header.ofWord word).type? = some .kernelDispatch
  signal : ∃ completion, s.packetSignal (q.ring.read index).completionSignal = .ok completion
  planned : ∃ a, q.agent.bind s.agents.get? = some a ∧
    (q.ring.read index).dispatch.plan (companionOfWord word) a.info s.kernels s.memory = .launch l

theorem packetSignal_eq_ok {raw : UInt64} {completion : Option Handle}
    (found : s.packetSignal raw = .ok completion) :
    completion = (if raw = 0 then none else some ⟨raw⟩) ∧
      ∀ h, completion = some h → s.signals.isLive h = true := by
  rw [packetSignal] at found
  split at found
  case isTrue zero =>
    cases found
    exact ⟨(if_pos zero).symm, by simp⟩
  case isFalse nonzero =>
    split at found
    case isTrue live =>
      cases found
      exact ⟨(if_neg nonzero).symm, by rintro _ ⟨⟩; exact live⟩
    case isFalse => cases found

/-- What examining a packet comes to, and what it leaves behind. -/
inductive Outcome (s : Session) (q : Queue) (index : UInt64) (word : UInt32) :
    Examined → Session → Prop where
  | failed (cause : Fault) (idle : ∀ l, ¬ s.Launches q index word l) :
      Outcome s q index word (.failed cause) s
  | crashed (idle : ∀ l, ¬ s.Launches q index word l) : Outcome s q index word .crashed s
  /-- A kernel dispatch without work-items. -/
  | nothing {completion : Option Handle}
      (type : (Header.ofWord word).type? = some .kernelDispatch)
      (signal : s.packetSignal (q.ring.read index).completionSignal = .ok completion)
      (empty : q.agent.bind s.agents.get? = none ∨ (q.ring.read index).dispatch.isEmpty = true) :
      Outcome s q index word (.done completion) s
  | ran {completion : Option Handle} {l : Launch}
      (signal : s.packetSignal (q.ring.read index).completionSignal = .ok completion)
      (launches : s.Launches q index word l) (returned : (s.runLaunch l).1 = false) :
      Outcome s q index word (.done completion) (s.runLaunch l).2
  | panicked {l : Launch} (launches : s.Launches q index word l)
      (ended : (s.runLaunch l).1 = true) :
      Outcome s q index word (.failed (.packet index (.kernelPanicked l.kernel.name)))
        (s.runLaunch l).2
  | held {b : PendingBarrier} (type : (Header.ofWord word).type? ≠ some .kernelDispatch)
      (signal : s.packetSignal (q.ring.read index).completionSignal = .ok b.completion) :
      Outcome s q index word (.held b) s

/-- What the packet of an index comes to as a kernel dispatch on an agent. -/
def planOf (s : Session) (q : Queue) (index : UInt64) (word : UInt32) (a : Agent) : DispatchPlan :=
  (q.ring.read index).dispatch.plan (companionOfWord word) a.info s.kernels s.memory

section Plan

variable {a : Agent} {completion : Option Handle}
variable (host : q.agent.bind s.agents.get? = some a)
include host

/-- Only a packet that comes to a launch is run. -/
theorem not_launches {plan : DispatchPlan} (planned : s.planOf q index word a = plan)
    (other : ∀ l, plan ≠ .launch l) (l : Launch) : ¬ s.Launches q index word l := by
  intro launches
  obtain ⟨b, found, launched⟩ := launches.planned
  obtain rfl : a = b := Option.some.inj (host.symm.trans found)
  exact other l (planned.symm.trans launched)

theorem examineDispatch_eq
    (signal : s.packetSignal (q.ring.read index).dispatch.completionSignal = .ok completion) :
    s.examineDispatch q index (q.ring.read index).dispatch (companionOfWord word) =
      match s.planOf q index word a with
      | .empty => (.done completion, s)
      | .refused cause => (.failed (.packet index cause), s)
      | .overflow => (.crashed, s)
      | .launch l =>
        match s.runLaunch l with
        | (true, m) => (.failed (.packet index (.kernelPanicked l.kernel.name)), m)
        | (false, m) => (.done completion, m) := by
  rw [examineDispatch, signal, host, planOf]
  dsimp only [Option.map_some]
  cases (q.ring.read index).dispatch.plan (companionOfWord word) a.info s.kernels s.memory with
  | empty | refused | overflow => rfl
  | launch l => rcases s.runLaunch l with ⟨_ | _, m⟩ <;> rfl

end Plan

/-- Only a packet without work-items comes to nothing. -/
theorem isEmpty_of_plan {d : KernelDispatch} {setup : UInt16} {info : AgentInfo}
    {kernels : KernelTable} {memory : Memory}
    (empty : d.plan setup info kernels memory = .empty) : d.isEmpty = true := by
  rw [KernelDispatch.plan] at empty
  split at empty
  case isTrue nothing => exact nothing
  case isFalse =>
    repeat' split at empty
    all_goals cases empty

theorem outcome_examineDispatch (type : (Header.ofWord word).type? = some .kernelDispatch) :
    Outcome s q index word
      (s.examineDispatch q index (q.ring.read index).dispatch (companionOfWord word)).1
      (s.examineDispatch q index (q.ring.read index).dispatch (companionOfWord word)).2 := by
  cases signal : s.packetSignal (q.ring.read index).dispatch.completionSignal with
  | error cause =>
    rw [examineDispatch, signal]
    refine .failed cause fun l launches => ?_
    obtain ⟨completion, found⟩ := launches.signal
    cases signal.symm.trans found
  | ok completion =>
    cases host : q.agent.bind s.agents.get? with
    | none =>
      rw [examineDispatch, signal, host]
      exact .nothing type signal (.inl host)
    | some a =>
      rw [examineDispatch_eq host signal]
      cases planned : s.planOf q index word a with
      | empty => exact .nothing type signal (.inr (isEmpty_of_plan planned))
      | refused cause => exact .failed _ (not_launches host planned fun _ => nofun)
      | overflow => exact .crashed (not_launches host planned fun _ => nofun)
      | launch l =>
        have launches : s.Launches q index word l := ⟨type, ⟨_, signal⟩, a, host, planned⟩
        have returned := fun h => Outcome.ran signal launches h
        have ended := Outcome.panicked launches
        dsimp only
        generalize s.runLaunch l = result at returned ended ⊢
        obtain ⟨_ | _, after⟩ := result
        · exact returned rfl
        · exact ended rfl

theorem outcome_examineBarrier {b : Barrier} {all : Bool}
    (type : (Header.ofWord word).type? ≠ some .kernelDispatch)
    (same : b.completionSignal = (q.ring.read index).completionSignal) :
    Outcome s q index word (s.examineBarrier b all) s := by
  have idle : ∀ l, ¬ s.Launches q index word l := fun l launches => type launches.type
  rw [examineBarrier, same]
  cases signal : s.packetSignal (q.ring.read index).completionSignal with
  | error cause => exact .failed cause idle
  | ok completion =>
    dsimp only [Bind.bind, Except.bind]
    cases b.dependencies.toList.mapM s.packetSignal with
    | error cause => exact .failed cause idle
    | ok dependencies => exact .held type signal

theorem outcome_examine (s : Session) (q : Queue) (index : UInt64) (word : UInt32) :
    Outcome s q index word (s.examine q index word).1 (s.examine q index word).2 := by
  by_cases type : (Header.ofWord word).type? = some .kernelDispatch
  · have outcome : Outcome s q index word _ _ := outcome_examineDispatch type
    rw [examine, type]
    exact outcome
  · have idle : ∀ l, ¬ s.Launches q index word l := fun l launches => type launches.type
    rw [examine]
    cases other : (Header.ofWord word).type? with
    | none => exact .failed _ idle
    | some t =>
      cases t with
      | kernelDispatch => exact absurd other type
      | barrierAnd => exact outcome_examineBarrier type rfl
      | barrierOr => exact outcome_examineBarrier type rfl
      | vendorSpecific => exact .failed _ idle
      | invalid => exact .failed _ idle
      | agentDispatch => exact .failed _ idle

/-! ### Steps -/

/-- A step of a command processor, with what it does. -/
inductive Move (s : Session) (q : Queue) (p : Processor) : List Deed → Session → Prop where
  /-- Nothing is published at the index. -/
  | look (state : p.state = .ready)
      (vacant : (q.ring.header p.index).isUnpublished = true) :
      Move s q p [] (s.setProcessor q { p with state := .idle })
  | resume (state : p.state = .idle)
      (stays : (q.isActive && s.signals.isLive q.doorbell) = true) :
      Move s q p [] (s.setProcessor q { p with state := .ready })
  /-- Nothing was published when the processor looked, and nothing is waited for. -/
  | leave (state : p.state = .idle)
      (gone : (q.isActive && s.signals.isLive q.doorbell) = false) :
      Move s q p [] (s.setProcessor q { p with state := .stopped })
  /-- A kernel dispatch without work-items. -/
  | skip {completion : Option Handle} (state : p.state = .ready)
      (published : (q.ring.header p.index).isUnpublished = false)
      (type : (q.ring.header p.index).type? = some .kernelDispatch)
      (signal : s.packetSignal (q.ring.read p.index).completionSignal = .ok completion)
      (empty : q.agent.bind s.agents.get? = none ∨
        (q.ring.read p.index).dispatch.isEmpty = true) :
      Move s q p [] (s.setProcessor q { p with state := .finishing completion })
  | run {completion : Option Handle} {l : Launch} (state : p.state = .ready)
      (published : (q.ring.header p.index).isUnpublished = false)
      (signal : s.packetSignal (q.ring.read p.index).completionSignal = .ok completion)
      (launches : s.Launches q p.index (q.ring.word p.index) l)
      (returned : (s.runLaunch l).1 = false) :
      Move s q p [.ran p.index l]
        ((s.runLaunch l).2.setProcessor q { p with state := .finishing completion })
  | panic {l : Launch} (state : p.state = .ready)
      (published : (q.ring.header p.index).isUnpublished = false)
      (launches : s.Launches q p.index (q.ring.word p.index) l)
      (ended : (s.runLaunch l).1 = true) :
      Move s q p
        [.ran p.index l, .failed p.index (.packet p.index (.kernelPanicked l.kernel.name))]
        ((s.runLaunch l).2.failPacket q p (.packet p.index (.kernelPanicked l.kernel.name)))
  | hold {b : PendingBarrier} (state : p.state = .ready)
      (published : (q.ring.header p.index).isUnpublished = false)
      (type : (q.ring.header p.index).type? ≠ some .kernelDispatch)
      (signal : s.packetSignal (q.ring.read p.index).completionSignal = .ok b.completion) :
      Move s q p [] (s.setProcessor q { p with state := .held b })
  | refuse {cause : Fault} (state : p.state = .ready)
      (published : (q.ring.header p.index).isUnpublished = false)
      (examined : s.examine q p.index (q.ring.word p.index) = (.failed cause, s))
      (idle : ∀ l, ¬ s.Launches q p.index (q.ring.word p.index) l) :
      Move s q p [.failed p.index cause] (s.failPacket q p cause)
  | crash (state : p.state = .ready)
      (published : (q.ring.header p.index).isUnpublished = false)
      (idle : ∀ l, ¬ s.Launches q p.index (q.ring.word p.index) l) :
      Move s q p [] (s.setProcessor q { p with state := .crashed })
  | pass {b : PendingBarrier} (state : p.state = .held b) (opens : s.barrierOpens b = .ok true) :
      Move s q p [] (s.setProcessor q { p with state := .finishing b.completion })
  | give {b : PendingBarrier} {cause : Fault} (state : p.state = .held b)
      (stale : s.barrierOpens b = .error cause) :
      Move s q p [.failed p.index cause] (s.failPacket q p cause)
  | complete {completion : Option Handle} (state : p.state = .finishing completion)
      (live : ∀ h, completion = some h → s.signals.isLive h = true) :
      Move s q p [.completed p.index completion] ((s.countDown completion).advance q p)
  /-- The completion signal was destroyed in the meantime. -/
  | miss {h : Handle} (state : p.state = .finishing (some h))
      (stale : s.signals.isLive h = false) :
      Move s q p [.failed p.index (.invalidSignal h)] (s.failPacket q p (.invalidSignal h))

/-- A processor that looks at the slot of its index. -/
theorem Move.of_ready (hp : q.processor = some p) (state : p.state = .ready)
    (stepped : s.stepProcessor? q = some t) : ∃ deeds, s.Move q p deeds t := by
  rw [stepProcessor?, hp] at stepped
  simp only [state] at stepped
  cases published : (q.ring.header p.index).isUnpublished with
  | true =>
    rw [PacketRing.header] at published
    simp only [published, if_true] at stepped
    cases stepped
    exact ⟨_, .look state published⟩
  | false =>
    have outcome := s.outcome_examine q p.index (q.ring.word p.index)
    have word : (Header.ofWord (q.ring.word p.index)).isUnpublished = false := published
    simp only [word] at stepped
    generalize examined : s.examine q p.index (q.ring.word p.index) = result at stepped outcome
    obtain ⟨examined, after⟩ := result
    cases outcome with
    | failed cause idle =>
      cases stepped
      exact ⟨_, .refuse state published examined idle⟩
    | crashed idle =>
      cases stepped
      exact ⟨_, .crash state published idle⟩
    | nothing type signal empty =>
      cases stepped
      exact ⟨_, .skip state published type signal empty⟩
    | ran signal launches returned =>
      cases stepped
      exact ⟨_, .run state published signal launches returned⟩
    | panicked launches ended =>
      cases stepped
      exact ⟨_, .panic state published launches ended⟩
    | held type signal =>
      cases stepped
      exact ⟨_, .hold state published type signal⟩

/-- A processor that has found nothing published. -/
theorem Move.of_idle (hp : q.processor = some p) (state : p.state = .idle)
    (stepped : s.stepProcessor? q = some t) : ∃ deeds, s.Move q p deeds t := by
  rw [stepProcessor?, hp] at stepped
  simp only [state] at stepped
  split at stepped
  case isTrue stays =>
    cases stepped
    exact ⟨_, .resume state stays⟩
  case isFalse gone =>
    cases stepped
    exact ⟨_, .leave state (Bool.eq_false_iff.mpr gone)⟩

/-- A processor that holds a barrier. -/
theorem Move.of_held {b : PendingBarrier} (hp : q.processor = some p) (state : p.state = .held b)
    (stepped : s.stepProcessor? q = some t) : ∃ deeds, s.Move q p deeds t := by
  rw [stepProcessor?, hp] at stepped
  simp only [state] at stepped
  cases opens : s.barrierOpens b with
  | error cause =>
    rw [opens] at stepped
    cases stepped
    exact ⟨_, .give state opens⟩
  | ok answer =>
    rw [opens] at stepped
    cases answer <;> cases stepped
    exact ⟨_, .pass state opens⟩

/-- A processor that is done with the work of a packet. -/
theorem Move.of_finishing {completion : Option Handle} (hp : q.processor = some p)
    (state : p.state = .finishing completion) (stepped : s.stepProcessor? q = some t) :
    ∃ deeds, s.Move q p deeds t := by
  rw [stepProcessor?, hp] at stepped
  simp only [state, finishPacket] at stepped
  cases completion with
  | none =>
    cases stepped
    exact ⟨_, .complete state (by simp)⟩
  | some h =>
    cases live : s.signals.isLive h with
    | false =>
      simp only [live] at stepped
      cases stepped
      exact ⟨_, .miss state live⟩
    | true =>
      simp only [live, if_true] at stepped
      cases stepped
      exact ⟨_, .complete state (by rintro _ ⟨⟩; exact live)⟩

/-- Every step of a command processor is one of these. -/
theorem Move.of_stepProcessor? (hp : q.processor = some p) (stepped : s.stepProcessor? q = some t) :
    ∃ deeds, s.Move q p deeds t := by
  cases state : p.state with
  | ready => exact Move.of_ready hp state stepped
  | idle => exact Move.of_idle hp state stepped
  | held b => exact Move.of_held hp state stepped
  | finishing completion => exact Move.of_finishing hp state stepped
  | stopped | crashed => simp [stepProcessor?, hp, state] at stepped

/-- A queue whose processor takes a step has a processor. -/
theorem Move.exists_of_stepProcessor? (stepped : s.stepProcessor? q = some t) :
    ∃ p deeds, q.processor = some p ∧ s.Move q p deeds t := by
  cases running : q.processor with
  | none => simp [stepProcessor?, running] at stepped
  | some p =>
    obtain ⟨deeds, move⟩ := Move.of_stepProcessor? running stepped
    exact ⟨p, deeds, rfl, move⟩

/-- A processor that has stopped takes no more steps. -/
theorem Move.not_stopped {deeds : List Deed} (move : s.Move q p deeds t) : p.state ≠ .stopped := by
  cases move <;> simp [*]

/-- What is run is what the packet comes to. -/
theorem Move.launches {deeds : List Deed} {l : Launch} (move : s.Move q p deeds t)
    (ran : .ran index l ∈ deeds) : s.Launches q index (q.ring.word index) l := by
  cases move with
  | run _ _ _ launches =>
    obtain ⟨rfl, rfl⟩ := Deed.ran.inj (List.mem_singleton.mp ran)
    exact launches
  | panic _ _ launches =>
    rcases List.mem_cons.mp ran with same | later
    · obtain ⟨rfl, rfl⟩ := Deed.ran.inj same
      exact launches
    · cases List.mem_singleton.mp later
  | look | resume | leave | skip | hold | crash | pass => cases ran
  | refuse | give | complete | miss => cases List.mem_singleton.mp ran

/-! ### What a step leaves behind -/

section After

variable {p' : Processor} {cause : Fault} {completion : Option Handle}

theorem sameQueues_runLaunch (s : Session) (l : Launch) : s.SameQueues (s.runLaunch l).2 :=
  ⟨rfl, rfl, rfl, fun _ => rfl⟩

theorem sameQueues_countDown (s : Session) (completion : Option Handle) :
    s.SameQueues (s.countDown completion) := by
  cases completion <;> exact ⟨rfl, rfl, rfl, fun _ => rfl⟩

theorem changes_setProcessor (s : Session) (q : Queue) (p' : Processor) :
    s.Changes (· = q.handle) (s.setProcessor q p') :=
  s.changes_modifyQueue fun _ => rfl

theorem get?_setProcessor (s : Session) (q : Queue) (p' : Processor) :
    (s.setProcessor q p').queues.get? q.handle =
      (s.queues.get? q.handle).map (·.setProcessor p') :=
  Directory.get?_modify_self ..

theorem inactivate_handle (q : Queue) : q.inactivate.handle = q.handle := by
  rw [Queue.inactivate]
  split <;> rfl

theorem inactivate_ring (q : Queue) : q.inactivate.ring = q.ring := by
  rw [Queue.inactivate]
  split <;> rfl

theorem inactivate_isActive (q : Queue) : q.inactivate.isActive = false := by
  rw [Queue.inactivate]
  split
  case isTrue => rfl
  case isFalse ended => exact Bool.eq_false_iff.mpr ended

theorem queues_failPacket (s : Session) (q : Queue) (p : Processor) (cause : Fault) :
    (s.failPacket q p cause).queues =
      ((s.modifyQueue q.handle (·.inactivate)).setProcessor q
        { p with state := .stopped }).queues := by
  rw [failPacket]
  split <;> rfl

theorem notices_failPacket (s : Session) (q : Queue) (p : Processor) (cause : Fault) :
    (s.failPacket q p cause).notices =
      s.notices ++ if q.notifies then [⟨q.handle, cause⟩] else [] := by
  rw [failPacket]
  split
  · rfl
  · exact (List.append_nil _).symm

theorem get?_failPacket (s : Session) (q : Queue) (p : Processor) (cause : Fault) :
    (s.failPacket q p cause).queues.get? q.handle = (s.queues.get? q.handle).map fun q =>
      q.inactivate.setProcessor { p with state := .stopped } := by
  rw [queues_failPacket, get?_setProcessor, modifyQueue, Directory.get?_modify_self,
    Option.map_map]
  rfl

theorem changes_failPacket (s : Session) (q : Queue) (p : Processor) (cause : Fault) :
    s.Changes (· = q.handle) (s.failPacket q p cause) := by
  have marked := trans_of _ (s.changes_modifyQueue (h := q.handle) inactivate_handle)
    (changes_setProcessor _ q { p with state := .stopped })
  refine ⟨queues_failPacket s q p cause ▸ marked.queues, fun h spared => ?_, ?_, ?_⟩
  · rw [told, notices_failPacket, List.filter_append, told]
    split <;> simp [Ne.symm spared]
  · rw [failPacket]
    split <;> exact marked.isOpen
  · rw [failPacket]
    split <;> exact marked.agents

theorem changes_advance (s : Session) (q : Queue) (p : Processor) :
    s.Changes (· = q.handle) (s.advance q p) := by
  have retired := s.changes_modifyRing q.handle (·.retire p.index)
  rw [advance]
  split
  · exact trans_of _ retired (changes_setProcessor _ q _)
  case h_2 next _ =>
    have moved := trans_of _ retired (changes_modifyRing _ q.handle (·.setReadIndex next))
    exact trans_of _ moved (changes_setProcessor _ q _)

/-- A complete packet moves the processor on, unless its index is the last of all. -/
theorem get?_advance (s : Session) (q : Queue) {p : Processor} (fits : p.index.toNat + 1 < 2 ^ 64) :
    (s.advance q p).queues.get? q.handle = (s.queues.get? q.handle).map fun q =>
      (q.modifyRing fun r => (r.retire p.index).setReadIndex (p.index + 1)).setProcessor
        ⟨p.index + 1, .ready⟩ := by
  have next : Word.add? p.index 1 = some (p.index + 1) := if_pos fits
  rw [advance]
  rw [next]
  dsimp only
  rw [get?_setProcessor, modifyQueue, modifyQueue, Directory.get?_modify_self,
    Directory.get?_modify_self, Option.map_map, Option.map_map]
  rfl

theorem failPacket_rest (s : Session) (q : Queue) (p : Processor) (cause : Fault) :
    { s.failPacket q p cause with queues := s.queues, notices := s.notices } = s := by
  rw [failPacket]
  split <;> rfl

theorem advance_rest (s : Session) (q : Queue) (p : Processor) (queues : Directory Queue) :
    { s.advance q p with queues } = { s with queues } := by
  rw [advance]
  split <;> rfl

/-- A step touches the queue of the processor only. -/
theorem Move.changes {deeds : List Deed} (move : s.Move q p deeds t) :
    s.Changes (· = q.handle) t := by
  cases move with
  | look | resume | leave | skip | hold | crash | pass => exact changes_setProcessor s q _
  | run => exact trans_of _ (sameQueues_runLaunch s _).changes (changes_setProcessor _ q _)
  | panic => exact trans_of _ (sameQueues_runLaunch s _).changes (changes_failPacket _ q p _)
  | refuse | give | miss => exact changes_failPacket s q p _
  | complete => exact trans_of _ (sameQueues_countDown s _).changes (changes_advance _ q p)

/-- Apart from the queue, and from what the application is told, a step does what its deeds do, and
nothing else. -/
theorem Move.acts {deeds : List Deed} (move : s.Move q p deeds t) :
    { t with queues := s.queues, notices := s.notices } = deeds.foldl Deed.act s := by
  cases move with
  | look | resume | leave | skip | hold | crash | pass | run => rfl
  | panic | refuse | give | miss => exact failPacket_rest _ q p _
  | @complete completion =>
    cases completion <;>
      exact congrArg (fun t => { t with notices := s.notices }) (advance_rest _ q p s.queues)

end After

end Session

end Accelerator
