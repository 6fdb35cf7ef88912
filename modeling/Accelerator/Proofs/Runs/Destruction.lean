import Accelerator.Proofs.Code.Changes
import Accelerator.Proofs.Processor.Attendance
import Accelerator.Proofs.Runs.Creation
import Accelerator.Proofs.Runs.Lifetimes

/-!
# Destroying queues

A queue that is destroyed gives back what it took: a place, the memory of its ring, and the doorbell
that was made with it. It knows the doorbell and the memory by a handle and an address that it noted
when it was made. Much may have happened since: the application may have destroyed the doorbell
itself, and a new signal may live in the same slot.

Nothing else is lost in any case. Handles are never issued twice, so the handle that a queue noted
names its own doorbell or nothing at all; and memory of rings is not the application's to free. To
say this, a run keeps a record of the signals that were made on the way, with what each was made
for.

## What the record is for

Whether a live signal is the doorbell of a queue cannot be seen from its handle. The record of what
signals were made for decides it: handles in the record are distinct, so a handle stands for one
origin. Without the record one could only say that a queue takes away the signal of the handle it
noted, and not that this is its own.

## Main definitions

* `SignalOrigin`, `Turn.signalOrigins`: the signals that are made in a turn.
* `Session.SignalRun`: a run with the signals that were made on the way.
* `Session.Traced`: what the signals that were made have to do with the session.
* `Session.LosesOnly`: nothing was lost but a queue and what had been made for it.

## Main results

* `Session.SignalRun.traced`: signals that were made have different handles, and the doorbell of a
  hardware queue is the one that was made for it.
* `Session.SignalRun.destroys_alone`: destroying a queue spares everything else.
-/

namespace Accelerator

/-- What a signal was made for. -/
inductive SignalOrigin where
  /-- The application asked for it. -/
  | application (h : Handle)
  /-- It is the doorbell of a new hardware queue. -/
  | doorbell (queue h : Handle)
  deriving DecidableEq

/-- The handle of a signal that was made. -/
def SignalOrigin.handle : SignalOrigin → Handle
  | application h | doorbell _ h => h

/-- The signals that are made in a turn. -/
def Turn.signalOrigins (s : Session) : Turn → List SignalOrigin
  | application (.createSignal initial count consumers) =>
    match (Session.createSignal initial count consumers s).1 with
    | .ok h => [.application h]
    | .error _ => []
  | application (.createQueue agent size type options) =>
    match (Session.createQueue agent size type options s).1 with
    | .ok q => [.doorbell q.handle q.doorbell]
    | .error _ => []
  | _ => []

namespace Session

open Accelerator.Action

variable {s t u : Session} {h k : Handle} {q : Queue} {origins : List SignalOrigin}

/-! ### What is made -/

/-- A signal is made at the next handle, or nothing happens. -/
theorem createSignal_cases (initial : Int64) (count : UInt32) (consumers : List Handle)
    (s : Session) :
    (∃ e, createSignal initial count consumers s = (.error e, s)) ∨
      ∃ signal, signal.handle = s.signals.nextHandle ∧
        createSignal initial count consumers s =
          (.ok s.signals.nextHandle, { s with signals := s.signals.insert signal }) := by
  rcases answer : createSignal initial count consumers s with ⟨e | h, t⟩
  · obtain rfl := (Request.createSignal initial count consumers).atomic id s e t answer
    exact .inl ⟨e, rfl⟩
  · simp only [createSignal, bind_eq_ok, ensureOpen_eq_ok, require_eq_ok, session_eq_ok,
      change_eq_ok, pure_eq_ok] at answer
    obtain ⟨_, _, ⟨-, rfl⟩, _, _, ⟨-, rfl⟩, _, m, found, _, _, ⟨rfl, rfl⟩, _, _, rfl, rfl, rfl⟩ :=
      answer
    obtain rfl : s = m := (keeps_forM (fun h => (keeps_agent h).discard) _).of_eq found
    exact .inr ⟨_, rfl, rfl⟩

/-- A soft queue is made over a signal that is there, or nothing happens. -/
theorem createSoftQueue_cases (regionHandle : Handle) (size : UInt32) (type : QueueType)
    (features : Features) (doorbell : Handle) (s : Session) :
    (∃ e, createSoftQueue regionHandle size type features doorbell s = (.error e, s)) ∨
      ∃ q t, createSoftQueue regionHandle size type features doorbell s = (.ok q, t) ∧
        q.agent = none ∧ t.queues = s.queues.insert q := by
  rcases answer : createSoftQueue regionHandle size type features doorbell s with ⟨e | q, t⟩
  · obtain rfl :=
      Request.atomic_createSoftQueue regionHandle size type features doorbell s e t answer
    exact .inl ⟨e, rfl⟩
  · simp only [createSoftQueue, bind_eq_ok, ensureOpen_eq_ok, require_eq_ok, session_eq_ok,
      change_eq_ok] at answer
    obtain ⟨_, _, ⟨-, rfl⟩, _, _, ⟨-, rfl⟩, _, _, ⟨-, rfl⟩, _, _, ⟨-, rfl⟩, r, m, found, bell, n,
      rang, _, _, ⟨rfl, rfl⟩, _, _, ⟨rfl, rfl⟩, _, _, ⟨-, rfl⟩, _, _, rfl, _, _, ⟨rfl, rfl⟩,
      answer⟩ := answer
    obtain rfl : s = m := (keeps_region _).of_eq found
    obtain rfl : s = n := (keeps_signal _).of_eq rang
    generalize taken : Session.allocateFrom _ _ _ _ _ = block at answer
    rcases block with cause | ⟨start, rounded, v⟩
    · simp [bind_eq_ok] at answer
    · have same := (sameQueues_allocateFrom taken).queues
      obtain ⟨_, _, changed, made⟩ := bind_eq_ok.mp answer
      obtain rfl := change_eq_ok.mp changed
      cases made
      exact .inr ⟨_, _, rfl, rfl, congrArg (Directory.insert · _) same⟩

/-! ### Queues that go on -/

/-- An operation that makes no queue lets those there are go on. -/
theorem continues_perform (wf : s.WellFormed) {o : Operation}
    (old : (∀ agent size type options, o ≠ .createQueue agent size type options) ∧
      ∀ region size type features bell, o ≠ .createSoftQueue region size type features bell) :
    s.QueuesContinue (o.perform s) := by
  cases o with
  | createQueue => exact absurd rfl (old.1 _ _ _ _)
  | createSoftQueue => exact absurd rfl (old.2 _ _ _ _ _)
  | createSignal => exact queuesContinue_of_eq (keeps_createSignal _ _ _ s).queues
  | allocate => exact queuesContinue_of_eq (keeps_allocate _ _ s).queues
  | free => exact queuesContinue_of_eq (keeps_free _ s).queues
  | assign => exact queuesContinue_of_eq (keeps_assign _ _ _ s).queues
  | takeHostBlock size =>
    refine queuesContinue_of_eq ?_
    rw [Operation.perform, hostBlock?]
    cases s.memory.host.allocate? size 1 <;> rfl
  | register => exact queuesContinue_of_eq (keeps_register _ _ s).queues
  | deregister => exact queuesContinue_of_eq (keeps_deregister _ _ s).queues
  | destroyQueue h =>
    show s.QueuesContinue (destroyQueue h s).2
    rcases keeps_ensureOpen.answers s with ⟨_, opened⟩ | ⟨e, closed⟩
    · rw [destroyQueue, bind_of_ok opened, bind_of_ok (session_apply s)]
      cases removed : s.queues.remove h Queue.destroy with
      | none => exact refl_of QueuesContinue s
      | some found => exact queuesContinue_destroyQueue wf removed
    · rw [destroyQueue, bind_of_error closed]
      exact refl_of QueuesContinue s
  | shutDown =>
    show s.QueuesContinue (shutDown s).2
    cases isOpen : s.isOpen with
    | true => exact shutDown_of_open isOpen ▸ s.queuesContinue_ended
    | false => exact (shutDown_of_closed isOpen).symm ▸ refl_of QueuesContinue s
  | createExecutable | loadCode | freezeExecutable | destroyExecutable =>
    refine queuesContinue_of_eq (reloads_perform ?_).sameQueues.queues
    trivial
  | _ =>
    refine (routine_perform wf.queues ?_).queuesContinue
    trivial

/-! ### Signals and what they were made for -/

/-- A run on sound hosts, with the signals that were made on the way. -/
inductive SignalRun : List SignalOrigin → Session → Prop where
  | opened {c : Config} {s : Session} (opened : openConfig c = .ok s) : SignalRun [] s
  | rehost {origins : List SignalOrigin} {s : Session} (before : SignalRun origins s)
      (host : Host) : SignalRun origins (s.rehost host)
  | step {origins : List SignalOrigin} {turn : Turn} {s t : Session}
      (before : SignalRun origins s) (sound : s.memory.HostSound) (step : Step turn s t) :
      SignalRun (origins ++ turn.signalOrigins s) t

theorem SignalRun.hosted (run : SignalRun origins s) : s.Hosted := by
  induction run with
  | opened opened => exact .opened opened
  | rehost _ host before => exact before.rehost host
  | step _ sound step before => exact before.step sound step

/-- The signals that were made have different handles, and each hardware queue has the doorbell that
was made for it. -/
structure Traced (origins : List SignalOrigin) (s : Session) : Prop where
  issued : ∀ o ∈ origins, s.signals.Issued o.handle
  apart : (origins.map SignalOrigin.handle).Nodup
  own : ∀ h q, s.queues.get? h = some q → q.agent ≠ none → .doorbell h q.doorbell ∈ origins

namespace Traced

variable (traced : Traced origins s) (wf : s.signals.WellFormed Signal.handle)
variable (signals : s.SignalsEvolve t)
include traced wf signals

/-- No signal is made, and the hardware queues are those that there were. -/
theorem still (queues : ∀ h q', t.queues.get? h = some q' → q'.agent ≠ none →
      ∃ q, s.queues.get? h = some q ∧ q'.agent = q.agent ∧ q'.doorbell = q.doorbell) :
    Traced origins t where
  issued o made := signals.issued wf (traced.issued o made)
  apart := traced.apart
  own h q' live hardware := by
    obtain ⟨q, before, agent, doorbell⟩ := queues h q' live hardware
    exact doorbell ▸ traced.own h q before (agent ▸ hardware)

theorem goesOn (queues : s.QueuesContinue t) : Traced origins t :=
  traced.still wf signals fun h q' live _ => by
    obtain ⟨q, before, later⟩ := queues h q' live
    exact ⟨q, before, later.agent, later.doorbell⟩

/-- One signal is made, at the next handle. -/
theorem add (room : s.HasRoom) {signal : Signal} (same : t.signals = s.signals.insert signal)
    {o : SignalOrigin} (next : o.handle = s.signals.nextHandle)
    (queues : ∀ h q', t.queues.get? h = some q' →
      s.queues.get? h = some q' ∨ o = .doorbell h q'.doorbell) : Traced (origins ++ [o]) t where
  issued o' made := by
    rcases List.mem_append.mp made with before | new
    · exact signals.issued wf (traced.issued o' before)
    · obtain rfl := List.mem_singleton.mp new
      refine .inl ?_
      rw [next, same, Directory.isLive, Directory.get?_insert wf room.1, if_pos rfl]
      rfl
  apart := by
    rw [List.map_append, List.map_cons, List.map_nil]
    refine List.nodup_append_comm.mp (List.nodup_cons.mpr ⟨fun listed => ?_, traced.apart⟩)
    obtain ⟨o', made, equal⟩ := List.mem_map.mp listed
    have before := traced.issued o' made
    rw [equal, next] at before
    exact wf.nextHandle_not_issued room.1 before
  own h q' live hardware := by
    rcases queues h q' live with before | rfl
    · exact List.mem_append_left _ (traced.own h q' before hardware)
    · exact List.mem_append_right _ (List.mem_singleton_self _)

end Traced

section Step

variable (traced : Traced origins s) (hosted : s.Hosted)
include traced hosted

theorem Traced.stepProcessor (live : s.queues.get? h = some q)
    (stepped : s.stepProcessor? q = some t) (signals : s.SignalsEvolve t) : Traced origins t := by
  refine traced.still hosted.signals signals fun k q' after _ => ?_
  rcases origin_step hosted.wellFormed live stepped after with ⟨rfl, p, -, left⟩ | ⟨-, before⟩
  · obtain ⟨agent, doorbell, -⟩ := left.keeps
    exact ⟨_, live, agent, doorbell⟩
  · exact ⟨q', before, rfl, rfl⟩

variable (room : s.HasRoom)
include room

theorem Traced.createSignal {initial : Int64} {count : UInt32} {consumers : List Handle}
    (signals : s.SignalsEvolve (createSignal initial count consumers s).2) :
    Traced (origins ++ (Turn.application (.createSignal initial count consumers)).signalOrigins s)
      (createSignal initial count consumers s).2 := by
  have queues := (keeps_createSignal initial count consumers s).queues
  rcases createSignal_cases initial count consumers s with ⟨e, answer⟩ | ⟨signal, -, answer⟩
  · simp only [Turn.signalOrigins, answer, List.append_nil]
    rw [answer] at signals queues
    exact traced.goesOn hosted.signals signals (queuesContinue_of_eq queues)
  · simp only [Turn.signalOrigins, answer]
    rw [answer] at signals queues
    exact traced.add hosted.signals signals room rfl rfl fun h q' live => .inl (queues ▸ live)

theorem Traced.createQueue {agent : Handle} {size : UInt32} {type : QueueType}
    {options : QueueOptions} (signals : s.SignalsEvolve (createQueue agent size type options s).2) :
    Traced (origins ++ (Turn.application (.createQueue agent size type options)).signalOrigins s)
      (createQueue agent size type options s).2 := by
  have wf := hosted.wellFormed
  rcases createQueue_cases agent size type options s with
    ⟨e, answer⟩ | ⟨a, base, host, -, answer | ⟨-, reason, -, answer⟩⟩
  · simp only [Turn.signalOrigins, answer, List.append_nil]
    exact traced
  · simp only [Turn.signalOrigins, answer]
    rw [answer] at signals
    refine traced.add hosted.signals signals room rfl rfl fun h q' live => ?_
    change (s.queues.insert _).get? h = some q' at live
    rw [Directory.get?_insert wf.queues room.2.1] at live
    split at live
    case isTrue new => exact .inr (by rw [← Option.some.inj live, new]; rfl)
    case isFalse => exact .inl live
  · -- the queue is gone, and its doorbell was not made known
    simp only [Turn.signalOrigins, answer, List.append_nil]
    obtain ⟨queues, removed, same⟩ := withdrawQueue_eq wf.queues room.2.1 a host
      (rfl : (s.hardwareQueue a size type options base).handle = _)
    rw [answer, same] at signals
    rw [same]
    refine traced.goesOn hosted.signals signals fun k q' live => ?_
    rw [get?_withdrawn room wf rfl removed] at live
    exact ⟨q', live, rfl, rfl, rfl, id, rfl⟩

theorem Traced.createSoftQueue {region : Handle} {size : UInt32} {type : QueueType}
    {features : Features} {bell : Handle}
    (signals : s.SignalsEvolve (createSoftQueue region size type features bell s).2) :
    Traced origins (createSoftQueue region size type features bell s).2 := by
  rcases createSoftQueue_cases region size type features bell s with
    ⟨e, answer⟩ | ⟨q, m, answer, soft, queues⟩
  · rwa [answer]
  · rw [answer] at signals ⊢
    refine traced.still hosted.signals signals fun h q' live hardware => ?_
    rcases get?_of_insert room hosted.wellFormed queues live with rfl | before
    · exact absurd soft hardware
    · exact ⟨q', before, rfl, rfl⟩

end Step

/-- Whatever happens, signals are made at handles that were not there, and hardware queues with
doorbells of their own. -/
theorem Traced.step {turn : Turn} (traced : Traced origins s) (hosted : s.Hosted)
    (step : Step turn s t) : Traced (origins ++ turn.signalOrigins s) t := by
  have signals := step.signals hosted.wellFormed
  cases step with
  | processor live stepped =>
    change Traced (origins ++ []) _
    rw [List.append_nil]
    exact traced.stepProcessor hosted live stepped signals
  | @application _ o room ready =>
    cases o with
    | createSignal => exact traced.createSignal hosted room signals
    | createQueue => exact traced.createQueue hosted room signals
    | createSoftQueue =>
      change Traced (origins ++ []) _
      rw [List.append_nil]
      exact traced.createSoftQueue hosted room signals
    | _ =>
      change Traced (origins ++ []) _
      rw [List.append_nil]
      exact traced.goesOn hosted.signals signals
        (continues_perform hosted.wellFormed ⟨nofun, nofun⟩)

/-- Along a run the signals that were made have different handles, and the doorbell of a hardware
queue is the one that was made for it. -/
theorem SignalRun.traced (run : SignalRun origins s) : Traced origins s := by
  induction run with
  | opened opened =>
    obtain rfl := openConfig_eq_ok opened
    refine ⟨nofun, List.nodup_nil, fun h q live => ?_⟩
    cases live.symm.trans (Directory.get?_empty h)
  | rehost _ host traced => exact ⟨traced.issued, traced.apart, traced.own⟩
  | step before _ step traced => exact traced.step before.hosted step

/-! ### Tearing a queue down -/

theorem signals_giveUpPlace (s : Session) (q : Queue) :
    (s.giveUpPlace q).signals = s.signals ∨ q.agent ≠ none ∧ ∃ signal,
      s.signals.remove q.doorbell id = some (signal, (s.giveUpPlace q).signals) := by
  rw [giveUpPlace]
  cases q.agent with
  | none => exact .inl rfl
  | some a =>
    dsimp only
    split
    case h_1 removed => exact .inr ⟨Option.some_ne_none a, _, removed⟩
    case h_2 => exact .inl rfl

/-- Giving up a place is a matter of the agent or the count of soft queues, and of the doorbell. -/
theorem giveUpPlace_eq (s : Session) (q : Queue) : ∃ agents softQueues,
    (∀ k, q.agent ≠ some k → agents.get? k = s.agents.get? k) ∧
      (q.agent ≠ none → softQueues = s.softQueues) ∧
      s.giveUpPlace q =
        { s with agents, softQueues, signals := (s.giveUpPlace q).signals } := by
  rcases s.giveUpPlace_cases q with ⟨a, signals, hardware, same⟩ | ⟨soft, same⟩
  · refine ⟨s.agents.modify a (·.dropQueue), s.softQueues, fun k other => ?_, fun _ => rfl, ?_⟩
    · exact Arena.get?_modify_of_ne (by rintro rfl; exact other hardware) _
    · rw [same]
      rfl
  · refine ⟨s.agents, s.softQueues - 1, fun _ _ => rfl, fun hardware => absurd soft hardware, ?_⟩
    rw [same]

/-- The blocks that are left when a queue has given back its ring. -/
def withoutRing (m : Memory) (q : Queue) : Memory :=
  { m with allocations := m.allocations.filter fun entry => some entry.1 ≠ q.ringAllocation }

theorem withoutRing_of_none (m : Memory) (none : q.ringAllocation = none) :
    withoutRing m q = m := by
  rw [withoutRing, none, List.filter_eq_self.mpr fun _ _ => by simp]

/-- A queue that is torn down gives up its place and the block of its ring. -/
theorem tearDown_eq (covers : s.Covers q) : ∃ regions,
    (q.ringAllocation = none → regions = s.regions) ∧
      s.tearDown q = { s.giveUpPlace q with regions, memory := withoutRing s.memory q } := by
  have place : (s.giveUpPlace q).regions = s.regions := by
    rcases s.giveUpPlace_cases q with ⟨a, signals, -, same⟩ | ⟨-, same⟩
    · rw [same]
      rfl
    · rw [same]
  rcases s.tearDown_cases q with ⟨same, kept⟩ | ⟨address, a, memory, ring, freed, same⟩
  · have none : q.ringAllocation = none := by
      rcases kept with none | ⟨address, e, ring, refused⟩
      · exact none
      · obtain ⟨a, memory, freed, -⟩ := covers.ring address ring
        cases refused.symm.trans freed
    refine ⟨s.regions, fun _ => rfl, ?_⟩
    rw [withoutRing_of_none s.memory none, same, ← place, ← s.memory_giveUpPlace q]
  · have rest : memory = withoutRing s.memory q := by
      rw [(Memory.free_eq_ok freed).2.2, withoutRing, ring]
      simp only [ne_eq, Option.some.injEq]
    refine ⟨(s.giveUpPlace q).regions.modify a.region (·.release a.size), fun none => ?_, ?_⟩
    · cases none.symm.trans ring
    · rw [same, rest]
      rfl

/-! ### What is spared -/

/-- Nothing was lost but a queue and what had been made for it: its place, the block of its ring,
and its doorbell if it is a hardware queue. -/
structure LosesOnly (s : Session) (q : Queue) (t : Session) : Prop where
  /-- The other queues, with their indices and slots. -/
  queues : ∀ k, k ≠ q.handle →
    t.queues.get? k = s.queues.get? k ∧ t.heldQueue? k = s.heldQueue? k
  destroyed : t.queues.get? q.handle = none ∧ t.heldQueue? q.handle = some q.destroy
  /-- Only a doorbell of a hardware queue is not live any more. -/
  signals : ∀ k, q.agent = none ∨ k ≠ q.doorbell → t.signals.get? k = s.signals.get? k
  /-- No signal has changed its value. -/
  values : ∀ k, t.heldSignal? k = s.heldSignal? k
  /-- All bytes, registrations and allocations but that of the ring. -/
  memory : t.memory = withoutRing s.memory q
  applications : ∀ entry ∈ s.memory.allocations,
    entry.2.usage = .application → entry ∈ t.memory.allocations
  agents : s.SameAgents t
  places : ∀ k, q.agent ≠ some k → t.agents.get? k = s.agents.get? k
  softPlaces : q.agent ≠ none → t.softQueues = s.softQueues
  regions : s.SameRegions t
  bytes : q.ringAllocation = none → t.regions = s.regions
  /-- Everything else, executables and kernels in particular. -/
  rest : { t with
    queues := s.queues, signals := s.signals, memory := s.memory, agents := s.agents
    softQueues := s.softQueues, regions := s.regions } = s

/-- Of the signals, only the doorbell of a hardware queue goes, and its value is kept. -/
theorem spares_signals {signals : Directory Signal} (wf : s.signals.WellFormed Signal.handle)
    (bells : signals = s.signals ∨ q.agent ≠ none ∧ ∃ signal,
      s.signals.remove q.doorbell id = some (signal, signals)) :
    (∀ k, q.agent = none ∨ k ≠ q.doorbell → signals.get? k = s.signals.get? k) ∧
      ∀ k, signals.held? k = s.signals.held? k := by
  rcases bells with rfl | ⟨hardware, signal, gone⟩
  · exact ⟨fun _ _ => rfl, fun _ => rfl⟩
  · refine ⟨fun k spared => ?_, Directory.held?_remove_id wf gone⟩
    rw [Directory.get?_remove wf gone, if_neg (spared.resolve_left hardware)]

/-- The ring of a queue is no allocation of the application. -/
theorem spares_applications (covers : s.Covers q) (sound : s.memory.WellFormed)
    {entry : UInt64 × Allocation} (listed : entry ∈ s.memory.allocations)
    (application : entry.2.usage = .application) :
    entry ∈ (withoutRing s.memory q).allocations := by
  refine List.mem_filter.mpr ⟨listed, decide_eq_true fun ring => ?_⟩
  obtain ⟨a, memory, freed, -⟩ := covers.ring entry.1 ring.symm
  obtain ⟨found, usage, -⟩ := Memory.free_eq_ok freed
  have same := found.symm.trans (sound.allocationAt?_eq_some.mpr listed)
  rw [Option.some.inj same, application] at usage
  cases usage

/-- A live queue can be destroyed, and that spares everything else. -/
theorem Hosted.destroyQueue_losesOnly (hosted : s.Hosted) (live : s.queues.get? h = some q) :
    ∃ t, destroyQueue h s = (.ok (), t) ∧ s.LosesOnly q t := by
  have wf := hosted.wellFormed
  obtain rfl : q.handle = h := wf.queues.named h q live
  have isOpen := hosted.isOpen_of_live live
  obtain ⟨queues, removed⟩ :
      ∃ queues, s.queues.remove q.handle Queue.destroy = some (q.destroy, queues) := by
    have live' : s.queues.live.get? q.handle = some q := live
    rw [Directory.remove, Arena.remove, live']
    exact ⟨_, rfl⟩
  have ran : destroyQueue q.handle s = (.ok (), { s with queues }.tearDown q.destroy) := by
    rw [destroyQueue, ensureOpen_bind isOpen, bind_of_ok (session_apply s), removed]
    rfl
  have covers := hosted.kept.solvent.destroy _ _ _ removed
  obtain ⟨regions, bytes, torn⟩ := tearDown_eq covers
  obtain ⟨agents, softQueues, places, softPlaces, given⟩ :=
    giveUpPlace_eq { s with queues } q.destroy
  have sameQueues := sameQueues_tearDown { s with queues } q.destroy
  have sameRegions := sameRegions_tearDown { s with queues } q.destroy
  obtain ⟨bells, values⟩ :=
    spares_signals hosted.signals (signals_giveUpPlace { s with queues } q.destroy)
  rw [given] at torn
  refine ⟨_, ran, ?_⟩
  rw [torn] at sameQueues sameRegions ⊢
  exact
    { queues := fun k other => by
        have live := Directory.get?_remove wf.queues removed k
        have held := Directory.held?_remove wf.queues removed k
        rw [if_neg other] at live held
        exact ⟨live, held⟩
      destroyed := Directory.held?_remove_self wf.queues removed
      signals := bells
      values
      memory := rfl
      applications := fun _ => spares_applications covers hosted.memory
      agents := sameQueues.agents
      places, softPlaces
      regions := sameRegions
      bytes
      rest := rfl }

/-! ### Destroying a queue -/

/-- A queue that was destroyed is never live again. -/
theorem Later.spent (later : s.Later t) (wf : s.WellFormed) (spent : s.queues.live.Spent h) :
    t.WellFormed ∧ t.queues.live.Spent h := by
  induction later with
  | refl => exact ⟨wf, spent⟩
  | tail _ next before =>
    obtain ⟨wf, spent⟩ := before
    refine ⟨next.wellFormed wf, ?_⟩
    cases next with
    | rehost => exact spent
    | step step => exact (step.changes wf.queues).queues.spent wf.queues spent

/-- Nothing is ever done again with the packets of a queue that was destroyed. -/
theorem LosesOnly.never_processed {u v : Session} {turn : Turn} (losesOnly : s.LosesOnly q t)
    (wf : t.WellFormed) (later : t.Later u) (step : Step turn u v) :
    turn ≠ .processor q.handle := by
  rintro rfl
  obtain ⟨gone, held⟩ := losesOnly.destroyed
  have spent : t.queues.live.Spent q.handle := by
    rcases wf.queues.live_or_spent held with live | ⟨-, -, spent⟩
    · cases gone.symm.trans live
    · exact spent
  obtain ⟨wf, spent⟩ := later.spent wf spent
  cases step with
  | processor live =>
    have none : u.queues.get? q.handle = none := spent.get?_eq_none wf.queues.live
    cases none.symm.trans live

/-- A signal was made for one thing only. -/
theorem Traced.eq_of_handle (traced : Traced origins s) {o o' : SignalOrigin} (made : o ∈ origins)
    (made' : o' ∈ origins) (same : o.handle = o'.handle) : o = o' :=
  List.inj_on_of_nodup_map traced.apart made made' same

/-- Destroying a queue spares everything else, whatever has happened before.

The other queues stay as they are, and so do all bytes, allocations of the application,
registrations, executables and kernels. No signal changes its value, and the only signal that may be
lost is the doorbell of a hardware queue; that was made for this very queue, so no signal that the
application made is lost, even if it lives where the doorbell had been. The packets that were still
in the ring are never looked at again.

The queue's processor must not be about to complete a packet, for which the destruction waits. -/
theorem SignalRun.destroys_alone (run : SignalRun origins s) (live : s.queues.get? h = some q)
    (still : ∀ index completion, q.processor ≠ some ⟨index, .finishing completion⟩) :
    ¬ (Operation.destroyQueue h).Waits s ∧ ∃ t, destroyQueue h s = (.ok (), t) ∧ s.LosesOnly q t ∧
      (q.agent ≠ none → .doorbell h q.doorbell ∈ origins) ∧
      (∀ k, .application k ∈ origins → t.signals.get? k = s.signals.get? k) ∧
      (∀ k bell, .doorbell k bell ∈ origins → k ≠ h →
        t.signals.get? bell = s.signals.get? bell) ∧
      ∀ u, t.Later u → ∀ turn v, Step turn u v → turn ≠ .processor h := by
  have hosted := run.hosted
  have traced := run.traced
  have wf := hosted.wellFormed
  obtain ⟨t, destroyed, losesOnly⟩ := hosted.destroyQueue_losesOnly live
  -- a signal that was made for something else is not the doorbell
  have others : ∀ o ∈ origins, o ≠ .doorbell h q.doorbell →
      t.signals.get? o.handle = s.signals.get? o.handle := fun o made other => by
    refine losesOnly.signals _ ?_
    by_cases soft : q.agent = none
    · exact .inl soft
    · exact .inr fun same => other (traced.eq_of_handle made (traced.own h q live soft) same)
  refine ⟨?_, t, destroyed, losesOnly, traced.own h q live, fun k made => ?_,
    fun k bell made other => ?_, fun u later turn v step => ?_⟩
  · rintro ⟨k, q', index, completion, live', finishing, destroys | ends⟩
    · cases destroys
      obtain rfl := Option.some.inj (live.symm.trans live')
      exact still index completion finishing
    · cases ends
  · exact others _ made nofun
  · exact others _ made fun same => other (SignalOrigin.doorbell.inj same).1
  · obtain rfl := wf.queues.named h q live
    have changes := (keeps_destroyQueue q.handle).of_eq destroyed
    exact losesOnly.never_processed (wf.of_changes changes) later step

/-- Runs go on with ascending blocks. -/
theorem SignalRun.ascend {turn : Turn} (run : SignalRun origins s) (ascends : s.memory.Ascends)
    (step : Step turn s t) :
    SignalRun (origins ++ turn.signalOrigins s) t ∧ t.memory.Ascends :=
  ⟨run.step (ascends.hostSound run.hosted.memory) step,
    (step.change run.hosted.wellFormed).ascends run.hosted.memory ascends⟩

/-- The application destroys the doorbell of a queue and makes a signal, which comes to live in the
same slot. When the queue is destroyed that signal stays. -/
theorem destroys_alone_reused : ∃ (origins : List SignalOrigin) (s t : Session) (q : Queue),
    SignalRun origins s ∧ s.queues.get? (.ofParts 0 1) = some q ∧ q.doorbell = .ofParts 0 1 ∧
      origins = [.doorbell (.ofParts 0 1) (.ofParts 0 1), .application (.ofParts 0 2)] ∧
      destroyQueue (.ofParts 0 1) s = (.ok (), t) ∧
      (t.signals.get? (.ofParts 0 2)).map Signal.value = some 7 := by
  have opened : SignalRun [] (.ofConfig .default) := .opened (c := .default) rfl
  have queued := opened.ascend ⟨rfl, nofun⟩ (.lasting
    (o := .createQueue (.ofParts 1 1) 64 .multi ⟨0, 0, true⟩)
    ⟨by decide, by decide, by decide⟩ ⟨nofun, nofun⟩)
  have muted := queued.1.ascend queued.2 (.lasting (o := .destroySignal (.ofParts 0 1))
    ⟨by decide, by decide, by decide⟩ ⟨nofun, nofun⟩)
  have signalled := muted.1.ascend muted.2 (.lasting (o := .createSignal 7 0 [])
    ⟨by decide, by decide, by decide⟩ ⟨nofun, nofun⟩)
  obtain ⟨-, t, destroyed, -, -, kept, -⟩ :=
    signalled.1.destroys_alone (h := .ofParts 0 1) rfl (by rintro _ _ ⟨⟩)
  refine ⟨_, _, t, _, signalled.1, rfl, rfl, rfl, destroyed, ?_⟩
  rw [kept (.ofParts 0 2) (List.mem_cons_of_mem _ (List.mem_singleton_self _))]
  rfl

end Session

end Accelerator
