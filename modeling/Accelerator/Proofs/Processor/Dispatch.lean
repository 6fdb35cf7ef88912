import Accelerator.Proofs.Grid.Admission
import Accelerator.Proofs.Runs.Operation

/-!
# Kernel dispatches on a command processor

A command processor that finds a kernel dispatch either refuses it, or runs its kernel over the
grid and completes it; a dispatch without work-items is completed without running anything.
Refusing a dispatch changes nothing but the queue, and what the application is told. There is one
more outcome: where a product of sizes does not fit its word, the processor itself comes to an end,
and the queue looks as if nothing had happened.

## Two steps to completion

A packet is worked on in one step and completed in the next, and anything may happen between the
two. `Completes` is about a processor that takes both without a break; what else may come in between
is a matter of runs.

That nothing else happens is said by one equation for each outcome, on the session with its queues
put back: it is the session before, or what the deeds lead to from there.

## Main definitions

* `Session.Takes`: a step of a processor, the deeds that it does and the queue that it leaves.
* `Session.Refuses`, `Session.Completes`, `Session.Crashes`: the outcomes.

## Main results

* `Session.examines_dispatch`: which dispatch has which outcome.
* `Session.not_refuses_large`: a dispatch that is too large for any agent, and is not refused.
-/

namespace Accelerator

namespace Session

variable {s t u m : Session} {q q' : Queue} {p : Processor} {completion : Option Handle}
variable {deeds work : List Deed} {a : Agent}

/-! ### Outcomes -/

/-- The processor of a queue takes a step, in which it does certain deeds, and leaves the queue in a
certain state. -/
structure Takes (s : Session) (q : Queue) (p : Processor) (deeds : List Deed) (t : Session)
    (q' : Queue) : Prop where
  running : q.processor = some p
  stepped : s.stepProcessor? q = some t
  move : s.Move q p deeds t
  live : t.queues.get? q.handle = some q'

/-- The packet is refused: the queue becomes inactive, the application is told of the packet once,
the processor stops, and nothing else happens. -/
def Refuses (s : Session) (q : Queue) (p : Processor) : Prop :=
  ∃ t q' cause, s.Takes q p [.failed p.index (.packet p.index cause)] t q' ∧
    q'.isActive = false ∧ q'.ring = q.ring ∧
    q'.processor = some { p with state := .stopped } ∧
    t.notices = s.notices ++
      (if q.notifies then [⟨q.handle, .packet p.index cause⟩] else []) ∧
    { t with queues := s.queues, notices := s.notices } = s

/-- The processor comes to an end: nothing happens any more, and the application is told nothing. -/
def Crashes (s : Session) (q : Queue) (p : Processor) : Prop :=
  ∃ t q', s.Takes q p [] t q' ∧ q' = q.setProcessor { p with state := .crashed } ∧
    t.stepProcessor? q' = none ∧ t.notices = s.notices ∧ { t with queues := s.queues } = s

/-- The packet is worked on in one step and completed in the next: its completion signal is counted
down, its slot is given back, and the processor goes on to the next index. -/
def Completes (s : Session) (q : Queue) (p : Processor) (work : List Deed)
    (completion : Option Handle) : Prop :=
  ∃ t q' p' u q'', s.Takes q p work t q' ∧ t.Takes q' p' [.completed p.index completion] u q'' ∧
    q'' = (q.modifyRing fun r => (r.retire p.index).setReadIndex (p.index + 1)).setProcessor
      ⟨p.index + 1, .ready⟩ ∧
    u.notices = s.notices ∧
    { u with queues := s.queues } = (work ++ [Deed.completed p.index completion]).foldl Deed.act s

theorem Takes.unique {deeds' : List Deed} {t' : Session} {q'' : Queue}
    (one : s.Takes q p deeds t q') (other : s.Takes q p deeds' t' q'') : t = t' ∧ q' = q'' := by
  obtain rfl : t = t' := Option.some.inj (one.stepped.symm.trans other.stepped)
  exact ⟨rfl, Option.some.inj (one.live.symm.trans other.live)⟩

theorem Crashes.not_refuses (crashes : s.Crashes q p) : ¬ s.Refuses q p := by
  obtain ⟨t, _, one, rfl, -⟩ := crashes
  rintro ⟨t', q'', cause, other, -, -, stopped, -⟩
  obtain ⟨-, rfl⟩ := one.unique other
  cases stopped

theorem Completes.not_refuses (completes : s.Completes q p work completion) : ¬ s.Refuses q p := by
  obtain ⟨t, q', p', u, _, one, next, -⟩ := completes
  rintro ⟨t', q'', cause, other, -, -, stopped, -⟩
  obtain ⟨-, rfl⟩ := one.unique other
  cases next.running.symm.trans stopped
  exact next.move.not_stopped rfl

/-! ### Steps -/

/-- What a processor does that finds a published packet. -/
theorem stepProcessor?_ready (running : q.processor = some p) (state : p.state = .ready)
    (published : (q.ring.header p.index).isUnpublished = false) :
    s.stepProcessor? q = some (match s.examine q p.index (q.ring.word p.index) with
      | (.done completion, m) => m.setProcessor q { p with state := .finishing completion }
      | (.held b, m) => m.setProcessor q { p with state := .held b }
      | (.failed cause, m) => m.failPacket q p cause
      | (.crashed, m) => m.setProcessor q { p with state := .crashed }) := by
  have published : (Header.ofWord (q.ring.word p.index)).isUnpublished = false := published
  rw [stepProcessor?, running]
  simp only [state, published]
  rcases s.examine q p.index (q.ring.word p.index) with ⟨_ | _ | _ | _, m⟩ <;> rfl

/-- A processor that is done with the work of a packet counts its completion signal down, which is
still live, and goes on. -/
theorem stepProcessor?_finishing (running : q.processor = some p)
    (state : p.state = .finishing completion)
    (usable : ∀ h, completion = some h → s.signals.isLive h = true) :
    s.stepProcessor? q = some ((s.countDown completion).advance q p) := by
  rw [stepProcessor?, running]
  simp only [state, finishPacket]
  cases completion with
  | none => rfl
  | some h =>
    simp only [usable h rfl, if_true]
    rfl

/-- A packet whose work is done in one step is completed in the next. -/
theorem completes_of_takes (live : m.queues.get? q.handle = some q) (running : q.processor = some p)
    (fits : p.index.toNat + 1 < 2 ^ 64)
    (usable : ∀ h, completion = some h → m.signals.isLive h = true)
    (notices : m.notices = s.notices)
    (worked : { m with queues := s.queues } = work.foldl Deed.act s)
    (stepped : s.stepProcessor? q =
      some (m.setProcessor q { p with state := .finishing completion }))
    (move : s.Move q p work (m.setProcessor q { p with state := .finishing completion })) :
    s.Completes q p work completion := by
  let p' : Processor := { p with state := .finishing completion }
  have after : (m.setProcessor q p').queues.get? q.handle = some (q.setProcessor p') := by
    rw [get?_setProcessor, live, Option.map_some]
  have finished := stepProcessor?_finishing (s := m.setProcessor q p') (q := q.setProcessor p')
    rfl rfl usable
  have counted := sameQueues_countDown (m.setProcessor q p') completion
  have gone := get?_advance ((m.setProcessor q p').countDown completion) (q.setProcessor p')
    (p := p') fits
  have here : ((m.setProcessor q p').countDown completion).queues.get? (q.setProcessor p').handle =
      some (q.setProcessor p') := counted.queues ▸ after
  rw [here, Option.map_some] at gone
  refine ⟨_, q.setProcessor p', p', _, _, ⟨running, stepped, move, after⟩,
    ⟨rfl, finished, .complete rfl usable, gone⟩, rfl, ?_, ?_⟩
  · have silent := congrArg Session.notices (advance_rest
      ((m.setProcessor q p').countDown completion) (q.setProcessor p') p' s.queues)
    exact silent.trans (counted.notices.trans notices)
  · rw [advance_rest, List.foldl_append, ← worked]
    cases completion <;> rfl

/-! ### Which dispatch has which outcome -/

/-- The processor of a queue finds a kernel dispatch, whose completion signal, if any, is live. -/
structure FindsDispatch (s : Session) (q : Queue) (p : Processor) (a : Agent) : Prop where
  live : s.queues.get? q.handle = some q
  running : q.processor = some p
  state : p.state = .ready
  fits : p.index.toNat + 1 < 2 ^ 64
  published : (q.ring.header p.index).isUnpublished = false
  type : (q.ring.header p.index).type? = some .kernelDispatch
  signal : ∀ h, (q.ring.read p.index).completion? = some h → s.signals.isLive h = true
  host : q.agent.bind s.agents.get? = some a

namespace FindsDispatch

variable (finds : s.FindsDispatch q p a)
include finds

theorem packetSignal_eq : s.packetSignal (q.ring.read p.index).completionSignal =
    .ok (q.ring.read p.index).completion? := by
  have live := finds.signal
  rw [Slot.completion?] at live ⊢
  rw [packetSignal]
  split
  case isTrue => rfl
  case isFalse nonzero =>
    rw [if_neg nonzero] at live
    rw [if_pos (live _ rfl)]

/-- What the processor comes to. -/
theorem examined : s.examine q p.index (q.ring.word p.index) =
    match s.planOf q p.index (q.ring.word p.index) a with
    | .empty => (.done (q.ring.read p.index).completion?, s)
    | .refused cause => (.failed (.packet p.index cause), s)
    | .overflow => (.crashed, s)
    | .launch l =>
      match s.runLaunch l with
      | (true, m) => (.failed (.packet p.index (.kernelPanicked l.kernel.name)), m)
      | (false, m) => (.done (q.ring.read p.index).completion?, m) := by
  have type : (Header.ofWord (q.ring.word p.index)).type? = some .kernelDispatch := finds.type
  rw [examine, type]
  exact examineDispatch_eq finds.host finds.packetSignal_eq

theorem refuses {cause : PacketFault}
    (planned : s.planOf q p.index (q.ring.word p.index) a = .refused cause) : s.Refuses q p := by
  have examined := finds.examined
  rw [planned] at examined
  have stepped : s.stepProcessor? q = some (s.failPacket q p (.packet p.index cause)) := by
    rw [stepProcessor?_ready finds.running finds.state finds.published, examined]
  have idle := not_launches finds.host planned fun _ => nofun
  have left := get?_failPacket s q p (.packet p.index cause)
  rw [finds.live, Option.map_some] at left
  exact ⟨_, _, cause,
    ⟨finds.running, stepped, .refuse finds.state finds.published examined idle, left⟩,
    inactivate_isActive q, inactivate_ring q, rfl, notices_failPacket s q p _,
    failPacket_rest s q p _⟩

theorem crashes
    (planned : s.planOf q p.index (q.ring.word p.index) a = .overflow) : s.Crashes q p := by
  have examined := finds.examined
  rw [planned] at examined
  have stepped : s.stepProcessor? q = some (s.setProcessor q { p with state := .crashed }) := by
    rw [stepProcessor?_ready finds.running finds.state finds.published, examined]
  have idle := not_launches finds.host planned fun _ => nofun
  have left := get?_setProcessor s q { p with state := .crashed }
  rw [finds.live, Option.map_some] at left
  exact ⟨_, _, ⟨finds.running, stepped, .crash finds.state finds.published idle, left⟩, rfl, rfl,
    rfl, rfl⟩

theorem completes_nothing (empty : (q.ring.read p.index).dispatch.isEmpty = true) :
    s.Completes q p [] (q.ring.read p.index).completion? := by
  have examined := finds.examined
  have planned : s.planOf q p.index (q.ring.word p.index) a = .empty := if_pos empty
  rw [planned] at examined
  refine completes_of_takes finds.live finds.running finds.fits finds.signal rfl rfl ?_
    (.skip finds.state finds.published finds.type finds.packetSignal_eq (.inr empty))
  rw [stepProcessor?_ready finds.running finds.state finds.published, examined]

theorem completes_launch {l : Launch}
    (planned : s.planOf q p.index (q.ring.word p.index) a = .launch l)
    (returned : (s.runLaunch l).1 = false) :
    s.Completes q p [.ran p.index l] (q.ring.read p.index).completion? := by
  have examined := finds.examined
  rw [planned] at examined
  refine completes_of_takes (m := (s.runLaunch l).2) finds.live finds.running finds.fits
    finds.signal rfl rfl ?_ (.run finds.state finds.published finds.packetSignal_eq
      ⟨finds.type, ⟨_, finds.packetSignal_eq⟩, a, finds.host, planned⟩ returned)
  rw [stepProcessor?_ready finds.running finds.state finds.published, examined]
  dsimp only
  generalize s.runLaunch l = result at returned ⊢
  obtain ⟨panicked, m⟩ := result
  obtain rfl : panicked = false := returned
  rfl

end FindsDispatch

/-- A processor that finds a kernel dispatch completes it without running anything if there are no
work-items. Otherwise it refuses the dispatch exactly if the agent should not run it, and runs its
kernel for every point of the grid and completes it if not. All this is so unless a product of
sizes does not fit its word: then the agent should not run the dispatch either, but the processor
comes to an end without refusing it. -/
theorem examines_dispatch (finds : s.FindsDispatch q p a)
    (returns : ∀ k, s.kernels.find? (q.ring.read p.index).dispatch.kernelObject = some k →
      k.Returns) :
    let d := (q.ring.read p.index).dispatch
    let setup := companionOfWord (q.ring.word p.index)
    let completion := (q.ring.read p.index).completion?
    (d.isEmpty = true → s.Completes q p [] completion) ∧
    (d.isEmpty = false →
      (d.Overflows setup a.info s.kernels →
        d.Unfit setup a.info s.kernels s.memory ∧ s.Crashes q p ∧ ¬ s.Refuses q p) ∧
      (¬ d.Overflows setup a.info s.kernels →
        (s.Refuses q p ↔ d.Unfit setup a.info s.kernels s.memory)) ∧
      (¬ d.Unfit setup a.info s.kernels s.memory → ∃ k kernarg,
        s.kernels.find? d.kernelObject = some k ∧ d.readKernarg k s.memory = .ok kernarg ∧
        let l := d.launchOf k kernarg
        l.Covers (l.ranGroups (List.range l.groupCount) ⟨s.memory, s.reports, false⟩) ∧
        s.Completes q p [.ran p.index l] completion)) := by
  refine ⟨finds.completes_nothing, fun nonempty => ?_⟩
  have spec : (q.ring.read p.index).dispatch.Plan (companionOfWord (q.ring.word p.index)) a.info
      s.kernels s.memory (s.planOf q p.index (q.ring.word p.index) a) :=
    KernelDispatch.plan_spec nonempty
  generalize planned : s.planOf q p.index (q.ring.word p.index) a = plan at spec
  cases spec with
  | refused unfit fits =>
    exact ⟨fun overflows => absurd overflows fits,
      fun _ => ⟨fun _ => unfit, fun _ => finds.refuses planned⟩,
      fun fit => absurd unfit fit⟩
  | overflow overflows =>
    have crashes := finds.crashes planned
    exact ⟨fun _ => ⟨overflows.unfit, crashes, crashes.not_refuses⟩,
      fun fits => absurd overflows fits,
      fun fit => absurd overflows.unfit fit⟩
  | @launch k kernarg fit known arguments grid =>
    have covered := KernelDispatch.covers_launchOf kernarg nonempty grid (returns k known)
      ⟨s.memory, s.reports, false⟩ rfl
    have completes := finds.completes_launch planned covered.1
    exact ⟨fun overflows => absurd overflows.unfit fit,
      fun _ => ⟨fun refuses => absurd refuses completes.not_refuses, fun unfit => absurd unfit fit⟩,
      fun _ => ⟨k, kernarg, known, arguments, covered.2, completes⟩⟩

/-- A kernel without effects is loaded on the graphics processor of the default configuration, and
dispatched to a queue of it. -/
def dispatched (workgroup : Dim3 UInt16) (grid : Dim3 UInt32) : Session :=
  let packet : KernelDispatch :=
    { header := 0, setup := 1, workgroup, reserved0 := 0, grid, privateSegmentSize := 0
      groupSegmentSize := 0, kernelObject := firstKernelObject, kernargAddress := 0, reserved2 := 0
      completionSignal := 0 }
  [Operation.createExecutable,
    .loadCode (.ofParts 0 1) (.ofParts 1 1) ⟨"aql-sim", [.ofEntry "noop" fun _ => .done ()]⟩,
    .freezeExecutable (.ofParts 0 1), .createQueue (.ofParts 1 1) 64 .multi ⟨0, 0, true⟩,
    .submit (.ofParts 0 1)
      ⟨.ofBody (.kernel packet), .ofType .kernelDispatch, packet.setup⟩].foldl
    (fun s o => o.perform s) (.ofConfig .default)

/-- A workgroup of two work-items on a grid of three is run and completed. -/
theorem examines_small : ∃ q l,
    (dispatched ⟨2, 1, 1⟩ ⟨3, 1, 1⟩).queues.get? (.ofParts 0 1) = some q ∧
      (dispatched ⟨2, 1, 1⟩ ⟨3, 1, 1⟩).Completes q .start [.ran 0 l] none := by
  obtain ⟨q, live, finds, nonempty, fit, none, returns⟩ : ∃ q,
      (dispatched ⟨2, 1, 1⟩ ⟨3, 1, 1⟩).queues.get? (.ofParts 0 1) = some q ∧
      (dispatched ⟨2, 1, 1⟩ ⟨3, 1, 1⟩).FindsDispatch q .start ⟨.ofParts 1 1, Config.gpu, 1⟩ ∧
      (q.ring.read 0).dispatch.isEmpty = false ∧
      ¬ (q.ring.read 0).dispatch.Unfit (companionOfWord (q.ring.word 0)) Config.gpu
        (dispatched ⟨2, 1, 1⟩ ⟨3, 1, 1⟩).kernels (dispatched ⟨2, 1, 1⟩ ⟨3, 1, 1⟩).memory ∧
      (q.ring.read 0).completion? = none ∧
      ∀ k, (dispatched ⟨2, 1, 1⟩ ⟨3, 1, 1⟩).kernels.find?
        (q.ring.read 0).dispatch.kernelObject = some k → k.Returns := by
    refine ⟨_, rfl, ⟨rfl, rfl, rfl, by decide, by decide, rfl, fun _ none => ?_, rfl⟩, by decide,
      ?_, rfl, ?_⟩
    · cases none
    · rintro (dims | unknown | wide | wide | ⟨k, known, lacks⟩)
      · exact absurd dims (by decide)
      · cases unknown
      · exact absurd wide (by decide)
      · exact absurd wide (by decide)
      · cases known
        exact lacks.1 rfl
    · rintro k ⟨⟩ item lane
      rfl
  obtain ⟨k, kernarg, -, -, -, completes⟩ := ((examines_dispatch finds returns).2 nonempty).2.2 fit
  change Completes _ q .start [.ran 0 _] (q.ring.read 0).completion? at completes
  rw [none] at completes
  exact ⟨q, _, live, completes⟩

/-- A workgroup so large that its size does not fit 32 bits is larger than the graphics processor
allows. It is not refused: its processor comes to an end. -/
theorem not_refuses_large : ∃ q,
    (dispatched ⟨65535, 65535, 2⟩ ⟨1, 1, 1⟩).queues.get? (.ofParts 0 1) = some q ∧
      (dispatched ⟨65535, 65535, 2⟩ ⟨1, 1, 1⟩).FindsDispatch q .start
        ⟨.ofParts 1 1, Config.gpu, 1⟩ ∧
      (q.ring.read 0).dispatch.isEmpty = false ∧
      (q.ring.read 0).dispatch.Unfit (companionOfWord (q.ring.word 0)) Config.gpu
        (dispatched ⟨65535, 65535, 2⟩ ⟨1, 1, 1⟩).kernels
        (dispatched ⟨65535, 65535, 2⟩ ⟨1, 1, 1⟩).memory ∧
      (dispatched ⟨65535, 65535, 2⟩ ⟨1, 1, 1⟩).Crashes q .start ∧
      ¬ (dispatched ⟨65535, 65535, 2⟩ ⟨1, 1, 1⟩).Refuses q .start := by
  obtain ⟨q, live, finds, nonempty, wide, planned⟩ : ∃ q,
      (dispatched ⟨65535, 65535, 2⟩ ⟨1, 1, 1⟩).queues.get? (.ofParts 0 1) = some q ∧
      (dispatched ⟨65535, 65535, 2⟩ ⟨1, 1, 1⟩).FindsDispatch q .start
        ⟨.ofParts 1 1, Config.gpu, 1⟩ ∧
      (q.ring.read 0).dispatch.isEmpty = false ∧
      (q.ring.read 0).dispatch.ExceedsWorkgroup Config.gpu ∧
      (q.ring.read 0).dispatch.plan (companionOfWord (q.ring.word 0)) Config.gpu
        (dispatched ⟨65535, 65535, 2⟩ ⟨1, 1, 1⟩).kernels
        (dispatched ⟨65535, 65535, 2⟩ ⟨1, 1, 1⟩).memory = .overflow := by
    refine ⟨_, rfl, ⟨rfl, rfl, rfl, by decide, by decide, rfl, fun _ none => ?_, rfl⟩, by decide,
      by decide, rfl⟩
    cases none
  have crashes := finds.crashes planned
  exact ⟨q, live, finds, nonempty, .inr (.inr (.inl wide)), crashes, crashes.not_refuses⟩

end Session

end Accelerator
