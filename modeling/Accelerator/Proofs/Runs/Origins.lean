import Accelerator.Proofs.Runs.Signals

/-!
# Where queues come from

The application makes queues, ends their reservations, and destroys them. It never sets a queue
going again that has ended, and it has no hand on command processors. So a queue that is live after
an operation was live before it, with the same doorbell and with a processor that does the same; or
it is new.

## The processor is part of it

`Queue.Continues` keeps the processor equal, since the application never changes it in place. So
what holds of a processor can only be undone by a step of its own.

## Main definitions

* `Queue.Continues`: what the application leaves of a live queue.
* `Session.Fresh`: a queue that was just made.

## Main results

* `Session.origin_perform`: the live queues after an operation.
* `Session.notices_perform`: the application tells itself nothing.
-/

namespace Accelerator

/-- A queue goes on: it has the same agent, doorbell and processor and as many slots, and has not
been set going again. -/
structure Queue.Continues (q q' : Queue) : Prop where
  agent : q'.agent = q.agent
  doorbell : q'.doorbell = q.doorbell
  processor : q'.processor = q.processor
  isActive : q'.isActive = true → q.isActive = true
  size : q'.ring.slots.size = q.ring.slots.size

theorem Queue.continues_inactivate (q : Queue) : q.Continues q.inactivate := by
  have ended := Session.inactivate_isActive q
  refine ⟨?_, ?_, ?_, fun active => absurd (ended.symm.trans active) (by decide), ?_⟩
  all_goals
    rw [inactivate]
    split <;> rfl

namespace Session

open Accelerator.Action

variable {s t : Session} {touched : Handle → Prop} {h : Handle} {q q' : Queue}

/-- Every live queue was live before, and went on. -/
def QueuesContinue (s t : Session) : Prop :=
  ∀ h q', t.queues.get? h = some q' → ∃ q, s.queues.get? h = some q ∧ q.Continues q'

instance : IsPreorder Session QueuesContinue where
  refl _ _ q live := ⟨q, live, rfl, rfl, rfl, id, rfl⟩
  trans _ _ _ first second h _ live := by
    obtain ⟨_, live, after⟩ := second h _ live
    obtain ⟨q, live, before⟩ := first h _ live
    exact ⟨q, live, after.agent.trans before.agent, after.doorbell.trans before.doorbell,
      after.processor.trans before.processor, before.isActive ∘ after.isActive,
      after.size.trans before.size⟩

theorem queuesContinue_of_eq (same : t.queues = s.queues) : s.QueuesContinue t := by
  intro h q live
  rw [same] at live
  exact ⟨q, live, rfl, rfl, rfl, id, rfl⟩

theorem queuesContinue_modifyQueue (s : Session) (h : Handle) {f : Queue → Queue}
    (goesOn : ∀ q : Queue, q.Continues (f q)) : s.QueuesContinue (s.modifyQueue h f) := by
  intro k q' live
  rw [modifyQueue, Directory.get?_modify] at live
  split at live
  case isTrue same =>
    obtain ⟨q, before, rfl⟩ := Option.map_eq_some_iff.mp live
    exact ⟨q, same ▸ before, goesOn q⟩
  case isFalse => exact ⟨q', live, rfl, rfl, rfl, id, rfl⟩

/-- A queue that was live, and still is, went on. -/
theorem QueuesContinue.of_live (all : s.QueuesContinue t) (before : s.queues.get? h = some q)
    (after : t.queues.get? h = some q') : q.Continues q' := by
  obtain ⟨_, live, later⟩ := all h q' after
  obtain rfl := Option.some.inj (before.symm.trans live)
  exact later

theorem Routine.queuesContinue (routine : s.Routine touched t) : s.QueuesContinue t := by
  induction routine with
  | refl s => exact refl_of QueuesContinue s
  | trans _ _ first second => exact trans_of QueuesContinue first second
  | setSignal | dropSignal | fill | tick => exact queuesContinue_of_eq rfl
  | ring _ s f sized =>
    exact s.queuesContinue_modifyQueue _ fun q => ⟨rfl, rfl, rfl, id, sized q.ring⟩
  | inactivate _ s => exact s.queuesContinue_modifyQueue _ Queue.continues_inactivate

/-- The queues that are not destroyed go on. -/
theorem queuesContinue_destroyQueue (wf : s.WellFormed) {queues : Directory Queue}
    (removed : s.queues.remove h Queue.destroy = some (q, queues)) :
    s.QueuesContinue ({ s with queues }.tearDown q) := by
  intro k q' live
  rw [(sameQueues_tearDown { s with queues } q).queues] at live
  change queues.get? k = some q' at live
  rw [Directory.get?_remove wf.queues removed] at live
  split at live
  · cases live
  · exact ⟨q', live, rfl, rfl, rfl, id, rfl⟩

/-- No queue outlives the session. -/
theorem queuesContinue_ended (s : Session) : s.QueuesContinue s.ended := by
  intro h q live
  rw [queues_ended] at live
  cases (Directory.get?_drain ..).symm.trans live

/-- A queue that was just made: its slots are a power of two, and if its agent runs kernels it has a
processor, which has not done anything yet, and a doorbell. -/
structure Fresh (s : Session) (q : Queue) : Prop where
  staffed : ∀ a, q.agent.bind s.agents.get? = some a →
    a.info.features.contains .kernelDispatch = true → q.processor ≠ none
  started : ∀ p, q.processor = some p →
    p = .start ∧ q.ring.readIndex = 0 ∧ s.signals.isLive q.doorbell = true
  sized : q.ring.IsSized

/-- A live queue is the one that was put in last, or it was live before. -/
theorem get?_of_insert (room : s.HasRoom) (wf : s.WellFormed) (same : t.queues = s.queues.insert q)
    (live : t.queues.get? h = some q') : q' = q ∨ s.queues.get? h = some q' := by
  rw [same, Directory.get?_insert wf.queues room.2.1] at live
  split at live
  · exact .inl (Option.some.inj live).symm
  · exact .inr live

/-- A hardware queue is new. -/
theorem fresh_hardwareQueue (room : s.HasRoom) (wf : s.WellFormed)
    (signals : s.signals.WellFormed Signal.handle) {size : UInt32} {type : QueueType} {a : Agent}
    {base : UInt64} {host : Host} (placement : s.Placement h size type a base host)
    (options : QueueOptions) :
    (s.withHardwareQueue a (s.hardwareQueue a size type options base) host).Fresh
      (s.hardwareQueue a size type options base) := by
  refine ⟨fun b hosts kernels => ?_, fun p running => ?_, PacketRing.isSized_ofSize placement.sized⟩
  · change (s.agents.modify a.handle (·.addQueue)).get? a.handle = some b at hosts
    rw [wf.agents h a placement.live, Arena.get?_modify_self, placement.live,
      Option.map_some] at hosts
    cases hosts
    have runs : a.info.features.contains .kernelDispatch = true := kernels
    rw [hardwareQueue, if_pos runs]
    exact Option.some_ne_none _
  · rw [hardwareQueue] at running
    dsimp only at running
    split at running
    · refine ⟨(Option.some.inj running).symm, rfl, ?_⟩
      have put : (s.signals.insert ⟨s.signals.nextHandle, idleDoorbell, []⟩).get?
          s.signals.nextHandle = some _ := Arena.get?_insert_self signals.live room.1 _
      exact congrArg Option.isSome put
    · cases running

/-- A hardware queue that was withdrawn is not found, and the others are. -/
theorem get?_withdrawn (room : s.HasRoom) (wf : s.WellFormed) {a : Agent} {host : Host}
    {queues : Directory Queue} (named : q.handle = s.queues.nextHandle)
    (removed : (s.queues.insert q).remove s.queues.nextHandle Queue.destroy =
      some (q.destroy, queues)) (k : Handle) :
    ({ s.withHardwareQueue a q host with queues }.tearDown q.destroy).queues.get? k =
      s.queues.get? k := by
  rw [(sameQueues_tearDown _ q.destroy).queues]
  exact Directory.get?_pass wf.queues room.2.1 named removed k

theorem Effect.origin (effect : s.Effect t) (room : s.HasRoom) (wf : s.WellFormed)
    (signals : s.signals.WellFormed Signal.handle) (live : t.queues.get? h = some q') :
    (∃ q, s.queues.get? h = some q ∧ q.Continues q') ∨ t.Fresh q' := by
  cases effect with
  | routine routine => exact .inl (routine.queuesContinue h q' live)
  | createSignal | allocate | free | assign | serve | register =>
    exact .inl ⟨q', live, rfl, rfl, rfl, id, rfl⟩
  | destroyQueue removed => exact .inl (queuesContinue_destroyQueue wf removed h q' live)
  | shutDown => exact .inl (s.queuesContinue_ended h q' live)
  | createQueue placement options =>
    rcases get?_of_insert room wf rfl live with rfl | before
    · exact .inr (fresh_hardwareQueue room wf signals placement options)
    · exact .inl ⟨q', before, rfl, rfl, rfl, id, rfl⟩
  | withdrawQueue placement made removed =>
    rw [get?_withdrawn room wf (congrArg Queue.handle made) removed] at live
    exact .inl ⟨q', live, rfl, rfl, rfl, id, rfl⟩
  | createSoftQueue _ _ _ _ stake idle sized =>
    rcases get?_of_insert room wf rfl live with rfl | before
    · have soft : q'.agent = none := congrArg Stake.agent stake
      refine .inr ⟨fun a host => ?_, fun p running => ?_, sized⟩
      · rw [soft] at host
        cases host
      · cases idle.symm.trans running
    · exact .inl ⟨q', before, rfl, rfl, rfl, id, rfl⟩

/-- A queue that was live stays as it is when another is put in. -/
theorem get?_insert_of_live (room : s.HasRoom) (wf : s.WellFormed) {q₀ : Queue}
    (same : t.queues = s.queues.insert q₀) (live : s.queues.get? h = some q) :
    t.queues.get? h = some q := by
  have old := wf.queues.ne_nextHandle room.2.1 (Directory.held?_of_get? live)
  rw [same, Directory.get?_insert wf.queues room.2.1, if_neg old]
  exact live

/-- A queue that is live before an operation and after it goes on. -/
theorem Effect.continues (effect : s.Effect t) (room : s.HasRoom) (wf : s.WellFormed)
    (before : s.queues.get? h = some q) (after : t.queues.get? h = some q') : q.Continues q' := by
  have goesOn : s.QueuesContinue t → q.Continues q' := fun all => all.of_live before after
  have stays : t.queues.get? h = some q → q.Continues q' := fun live => by
    obtain rfl := Option.some.inj (live.symm.trans after)
    exact ⟨rfl, rfl, rfl, id, rfl⟩
  cases effect with
  | routine routine => exact goesOn routine.queuesContinue
  | createSignal | allocate | free | assign | serve | register =>
    exact goesOn (queuesContinue_of_eq rfl)
  | destroyQueue removed => exact goesOn (queuesContinue_destroyQueue wf removed)
  | shutDown => exact goesOn s.queuesContinue_ended
  | createQueue | createSoftQueue => exact stays (get?_insert_of_live room wf rfl before)
  | withdrawQueue placement made removed =>
    exact stays ((get?_withdrawn room wf (congrArg Queue.handle made) removed h).trans before)

/-- A live queue after an operation was live before it and went on, or it is new. -/
theorem origin_perform (room : s.HasRoom) (wf : s.WellFormed)
    (signals : s.signals.WellFormed Signal.handle) (o : Operation)
    (live : (o.perform s).queues.get? h = some q') :
    (∃ q, s.queues.get? h = some q ∧ q.Continues q') ∨ (o.perform s).Fresh q' := by
  rcases reloads_or_effect room wf.queues o with reloads | effect
  · exact .inl (queuesContinue_of_eq reloads.sameQueues.queues h q' live)
  · exact effect.origin room wf signals live

/-! ### What the application is told -/

theorem Routine.notices (routine : s.Routine touched t) : t.notices = s.notices := by
  induction routine with
  | trans _ _ first second => exact second.trans first
  | refl | setSignal | dropSignal | fill | tick | ring | inactivate => rfl

/-- Only command processors tell the application of packets. -/
theorem Effect.notices (effect : s.Effect t) : t.notices = s.notices := by
  cases effect with
  | routine routine => exact routine.notices
  | createSignal | allocate | free | assign | serve | register => rfl
  | createQueue | createSoftQueue => rfl
  | @destroyQueue h q queues => exact (sameQueues_tearDown { s with queues } q).notices
  | @withdrawQueue _ _ a _ host _ _ q queues =>
    exact (sameQueues_tearDown { s.withHardwareQueue a q host with queues } q.destroy).notices
  | shutDown =>
    have tornDown := (sameQueues_foldl sameQueues_tearDown s.queues.values
      { s with queues := s.queues.drain Queue.destroy }).notices
    exact (sameQueues_releaseMemory _).notices.trans tornDown

theorem notices_perform (room : s.HasRoom) (wf : s.WellFormed) (o : Operation) :
    (o.perform s).notices = s.notices := by
  rcases reloads_or_effect room wf.queues o with reloads | effect
  · exact reloads.sameQueues.notices
  · exact effect.notices

end Session

end Accelerator
