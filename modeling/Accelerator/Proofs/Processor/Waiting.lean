import Accelerator.Proofs.Processor.Attendance
import Accelerator.Proofs.Runs.Lifetimes

/-!
# Waiting for signals

A command processor that finds a barrier at its index waits for the signals that the barrier depends
on. While it waits the application may set the signals as it likes, again and again, and destroy
them. What the processor makes of that depends on the moments at which it looks, and on nothing that
happens in between: if one of the signals is gone, the packet fails; if the condition of the barrier
holds, the processor goes on; otherwise it does nothing at all.

A signal that is gone never comes back. So once a signal is gone that a processor waits for, the
packet fails, however long it takes the processor to look.

## Why moments

The signals may change at any time, and a condition that holds now and then need never hold when the
processor looks. So a fate tells of a moment: the barrier was completed, and there was a moment at
which its condition held and all of its signals were live. Steps of others keep the fate as it is;
only a step of the processor can change it. The two are one lemma each.

That a signal is not live might mean that it has not been made yet. A processor that holds a barrier
has found all of its signals live once (`Session.HeldIssued`), so from then on a signal that is not
live was destroyed.

## Main definitions

* `Queue.Awaits`: the processor of a queue waits for the signals of a barrier.
* `Session.Responds`: what a processor that waits does in a session.
* `Session.Watch`: runs that leave the packet of an index to its processor.
* `Session.Fate`: what becomes of a barrier along a run.

## Main results

* `Session.Reachable.responds`: what a processor does that waits.
* `Session.Watch.fate`: along a run a barrier comes to one of its fates.
* `Session.Reachable.barrier_opens`: the barrier at the head of a queue.
-/

namespace Accelerator

/-- The processor of a queue waits for the signals of the barrier at its index: it has yet to
examine the barrier, or holds it. -/
def Queue.Awaits (q : Queue) (index : UInt64) (b : PendingBarrier) : Prop :=
  q.processor = some ⟨index, .ready⟩ ∧ (q.ring.read index).pendingBarrier? = some b ∨
    q.processor = some ⟨index, .held b⟩

namespace Session

variable {s t u m : Session} {h d : Handle} {q q' : Queue} {p : Processor} {index : UInt64}
variable {b : PendingBarrier}

/-! ### What a processor does that waits -/

/-- The packet of a processor fails: its queue becomes inactive, the application is told if it wants
to be, the processor stops, and nothing else happens. -/
def Drops (s : Session) (q : Queue) (p : Processor) (cause : Fault) : Prop :=
  ∃ t q', s.Takes q p [.failed p.index cause] t q' ∧ q'.state = .inactive ∧ q'.ring = q.ring ∧
    q'.processor = some { p with state := .stopped } ∧
    t.notices = s.notices ++ (if q.notifies then [⟨q.handle, cause⟩] else []) ∧
    { t with queues := s.queues, notices := s.notices } = s

/-- The processor has examined the barrier, or does so now. It holds the barrier then, and nothing
else has changed. -/
def Examines (s : Session) (q : Queue) (index : UInt64) (b : PendingBarrier) (t : Session)
    (q' : Queue) : Prop :=
  q.processor = some ⟨index, .held b⟩ ∧ t = s ∧ q' = q ∨
    s.Takes q ⟨index, .ready⟩ [] t q' ∧ q' = q.setProcessor ⟨index, .held b⟩ ∧
      { t with queues := s.queues } = s

/-- The packet of an index is completed: its completion signal is counted down, its slot is given
back, and the processor goes on to the next index if there is one. -/
def Finishes (s : Session) (q : Queue) (index : UInt64) (completion : Option Handle) : Prop :=
  ∃ t q', s.Takes q ⟨index, .finishing completion⟩ [.completed index completion] t q' ∧
    (q'.ring.header index).isUnpublished = true ∧
    (index.toNat + 1 < 2 ^ 64 →
      q'.ring.readIndex = index + 1 ∧ q'.processor = some ⟨index + 1, .ready⟩) ∧
    { t with queues := s.queues } = s.countDown completion

/-- The processor goes on from the barrier that it holds, and completes it in the next step. -/
def Passes (s : Session) (q : Queue) (index : UInt64) (b : PendingBarrier) : Prop :=
  ∃ t q', s.Takes q ⟨index, .held b⟩ [] t q' ∧
    q' = q.setProcessor ⟨index, .finishing b.completion⟩ ∧ { t with queues := s.queues } = s ∧
    t.Finishes q' index b.completion

/-- What a processor does with a barrier as soon as it is its turn. -/
structure Responds (s : Session) (q : Queue) (index : UInt64) (b : PendingBarrier) : Prop where
  /-- If a signal is gone that the barrier depends on, the packet fails, and the fault names such a
  signal. -/
  stale : q.Awaits index b → ∀ d, b.Stale s d →
    ∃ p d', p.index = index ∧ b.Stale s d' ∧ s.Drops q p (.invalidSignal d')
  /-- Otherwise the processor examines the barrier; then it completes the packet if the condition
  holds, and does nothing if not. -/
  live : q.Awaits index b → (∀ d, ¬ b.Stale s d) → ∃ t q', s.Examines q index b t q' ∧
    (b.Met s → t.Passes q' index b) ∧ (¬ b.Met s → t.stepProcessor? q' = none)
  /-- A processor that goes on completes the packet. -/
  finishes : q.processor = some ⟨index, .finishing b.completion⟩ → s.Finishes q index b.completion

/-- A queue that is not destroyed is inactive once its reservations have ended. -/
theorem state_inactivate (present : q.state ≠ .destroyed) : q.inactivate.state = .inactive := by
  rw [Queue.inactivate, Queue.isActive]
  cases state : q.state with
  | active => rfl
  | inactive => exact state
  | destroyed => exact absurd state present

/-- A queue stays inactive until it is destroyed. -/
theorem state_eq_inactive (later : q.Continues q') (present : q'.state ≠ .destroyed)
    (inactive : q.state = .inactive) : q'.state = .inactive := by
  cases state : q'.state with
  | active =>
    have active : q.isActive = true := later.isActive (by rw [Queue.isActive, state]; rfl)
    rw [Queue.isActive, inactive] at active
    cases active
  | inactive => rfl
  | destroyed => exact absurd state present

/-- A live queue is not destroyed. -/
theorem Reachable.state_ne_destroyed (reachable : s.Reachable)
    (live : s.queues.get? h = some q) : q.state ≠ .destroyed := fun ended => by
  have coherent := reachable.coherent (Directory.held?_of_get? live)
  cases live.symm.trans (coherent.destroyed.mp ended)

theorem drops_of_move {cause : Fault} (live : s.queues.get? q.handle = some q)
    (present : q.state ≠ .destroyed) (running : q.processor = some p)
    (stepped : s.stepProcessor? q = some (s.failPacket q p cause))
    (move : s.Move q p [.failed p.index cause] (s.failPacket q p cause)) : s.Drops q p cause := by
  have left := get?_failPacket s q p cause
  rw [live, Option.map_some] at left
  exact ⟨_, _, ⟨running, stepped, move, left⟩, state_inactivate present, inactivate_ring q, rfl,
    notices_failPacket s q p cause, failPacket_rest s q p cause⟩

theorem finishes_of_live {completion : Option Handle} (live : s.queues.get? q.handle = some q)
    (sized : q.ring.IsSized) (running : q.processor = some ⟨index, .finishing completion⟩)
    (usable : ∀ c, completion = some c → s.signals.isLive c = true) :
    s.Finishes q index completion := by
  have stepped := stepProcessor?_finishing running rfl usable
  have here : (s.countDown completion).queues.get? q.handle = some q :=
    (sameQueues_countDown s completion).queues ▸ live
  have given : ((q.ring.retire index).header index).isUnpublished = true := by
    rw [PacketRing.header, PacketRing.word, PacketRing.retire,
      PacketRing.read_modifySlot_self sized, Slot.word_setWord]
    exact isUnpublished_unpublished
  have rest : { (s.countDown completion).advance q ⟨index, .finishing completion⟩ with
      queues := s.queues } = s.countDown completion := by
    rw [advance_rest]
    cases completion <;> rfl
  by_cases fits : index.toNat + 1 < 2 ^ 64
  · have after := get?_advance (s.countDown completion) q
      (p := ⟨index, .finishing completion⟩) fits
    rw [here, Option.map_some] at after
    exact ⟨_, _, ⟨running, stepped, .complete rfl usable, after⟩, given, fun _ => ⟨rfl, rfl⟩, rest⟩
  · rcases get?_advance_cases (s.countDown completion) q ⟨index, .finishing completion⟩ with
      after | after
    all_goals
      rw [here, Option.map_some] at after
      exact ⟨_, _, ⟨running, stepped, .complete rfl usable, after⟩, given,
        fun more => absurd more fits, rest⟩

theorem passes_of_opens (live : s.queues.get? q.handle = some q) (sized : q.ring.IsSized)
    (running : q.processor = some ⟨index, .held b⟩) (opens : b.Opens s)
    (usable : ∀ c, b.completion = some c → s.signals.isLive c = true) : s.Passes q index b := by
  have answer : s.barrierOpens b = .ok true := by
    have looks := s.looks_barrierOpens b
    generalize s.barrierOpens b = answer at looks ⊢
    cases looks with
    | stale stale => exact absurd stale (opens.1 _)
    | opens => rfl
    | waits _ unmet => exact absurd opens.2 unmet
  have after := get?_setProcessor s q ⟨index, .finishing b.completion⟩
  rw [live, Option.map_some] at after
  refine ⟨_, _, ⟨running, ?_, .pass rfl answer, after⟩, rfl, rfl, ?_⟩
  · simp [stepProcessor?, running, answer]
  · exact finishes_of_live after sized rfl usable

theorem stepProcessor?_of_unmet (running : q.processor = some ⟨index, .held b⟩)
    (fresh : ∀ d, ¬ b.Stale s d) (unmet : ¬ b.Met s) : s.stepProcessor? q = none := by
  have answer : s.barrierOpens b = .ok false := by
    have looks := s.looks_barrierOpens b
    generalize s.barrierOpens b = answer at looks ⊢
    cases looks with
    | stale stale => exact absurd stale (fresh _)
    | opens opens => exact absurd opens.2 unmet
    | waits => rfl
  simp [stepProcessor?, running, answer]

/-- What a step comes to in which a processor examines a barrier. -/
inductive Begins (s : Session) (q : Queue) (index : UInt64) (b : PendingBarrier) :
    List Deed → Session → Prop where
  | orphan {c : Handle} (named : b.completion = some c) (gone : s.signals.isLive c = false) :
      Begins s q index b [.failed index (.invalidSignal c)]
        (s.failPacket q ⟨index, .ready⟩ (.invalidSignal c))
  | stale {d : Handle} (stale : b.Stale s d) :
      Begins s q index b [.failed index (.invalidSignal d)]
        (s.failPacket q ⟨index, .ready⟩ (.invalidSignal d))
  | hold (live : ∀ d, ¬ b.Stale s d) :
      Begins s q index b [] (s.setProcessor q ⟨index, .held b⟩)

/-- A processor whose packet failed has stopped. -/
theorem eq_stopped_of_failPacket {state : ProcessorState} {cause : Fault}
    (live : s.queues.get? q.handle = some q)
    (same : s.setProcessor q { p with state } = s.failPacket q p cause) : state = .stopped := by
  have doing := congrArg (fun u : Session => (u.queues.get? q.handle).map Queue.processor) same
  rw [get?_setProcessor, get?_failPacket, live] at doing
  cases doing
  rfl

theorem eq_of_setProcessor {state state' : ProcessorState}
    (live : s.queues.get? q.handle = some q)
    (same : s.setProcessor q { p with state } = s.setProcessor q { p with state := state' }) :
    state = state' := by
  have doing := congrArg (fun u : Session => (u.queues.get? q.handle).map Queue.processor) same
  rw [get?_setProcessor, get?_setProcessor, live] at doing
  cases doing
  rfl

/-- A processor that looks at a barrier examines it. -/
theorem Move.begins {deeds : List Deed} (move : s.Move q ⟨index, .ready⟩ deeds t)
    (live : s.queues.get? q.handle = some q) (running : q.processor = some ⟨index, .ready⟩)
    (stepped : s.stepProcessor? q = some t)
    (found : (q.ring.read index).pendingBarrier? = some b) : s.Begins q index b deeds t := by
  have published : (q.ring.header index).isUnpublished = false :=
    Slot.isUnpublished_of_pendingBarrier? found
  have type : (q.ring.header index).type? ≠ some .kernelDispatch := fun kernel => by
    have header : (q.ring.read index).header.type? = some .kernelDispatch := kernel
    rw [Slot.pendingBarrier?, header] at found
    cases found
  obtain ⟨examined, result, finds⟩ := s.finds_examine found
  have came := stepped.symm.trans (stepProcessor?_ready running rfl published)
  rw [result] at came
  replace came := Option.some.inj came
  cases move with
  | look _ vacant => cases published.symm.trans vacant
  | skip _ _ kernel => exact absurd kernel type
  | run _ _ _ launches => exact absurd launches.type type
  | panic _ _ launches => exact absurd launches.type type
  | refuse _ _ failed =>
    obtain rfl := congrArg Prod.fst (result.symm.trans failed)
    cases finds with
    | orphan named gone => exact .orphan named gone
    | stale stale => exact .stale stale
  | hold =>
    cases finds with
    | orphan | stale => cases eq_stopped_of_failPacket live came
    | barrier fresh =>
      cases eq_of_setProcessor live came
      exact .hold fresh
  | crash =>
    cases finds with
    | orphan | stale => cases eq_stopped_of_failPacket live came
    | barrier => cases eq_of_setProcessor live came
  | resume state | leave state | pass state | give state | complete state | miss state =>
    cases state

/-- A processor that looks at a barrier takes a step. -/
theorem exists_begins (live : s.queues.get? q.handle = some q)
    (running : q.processor = some ⟨index, .ready⟩)
    (found : (q.ring.read index).pendingBarrier? = some b) :
    ∃ deeds t, s.stepProcessor? q = some t ∧ s.Move q ⟨index, .ready⟩ deeds t ∧
      s.Begins q index b deeds t := by
  have published : (q.ring.header index).isUnpublished = false :=
    Slot.isUnpublished_of_pendingBarrier? found
  have stepped := stepProcessor?_ready (s := s) running rfl published
  obtain ⟨deeds, move⟩ := Move.of_ready running rfl stepped
  exact ⟨deeds, _, stepped, move, move.begins live running stepped found⟩

/-- What a processor does that waits, if the completion signal of the barrier is usable. -/
theorem Reachable.responds (reachable : s.Reachable) (live : s.queues.get? h = some q)
    (usable : ∀ c, b.completion = some c → s.signals.isLive c = true) :
    s.Responds q index b := by
  obtain rfl : q.handle = h := reachable.wellFormed.queues.named h q live
  have sized := (reachable.coherent (Directory.held?_of_get? live)).sized
  have present := reachable.state_ne_destroyed live
  refine ⟨fun awaits d stale => ?_, fun awaits fresh => ?_, fun running => ?_⟩
  · rcases awaits with ⟨running, found⟩ | running
    · obtain ⟨deeds, t, stepped, move, begins⟩ := exists_begins live running found
      cases begins with
      | orphan named gone => cases (usable _ named).symm.trans gone
      | hold fresh => exact absurd stale (fresh d)
      | @stale d' stale' =>
        exact ⟨_, d', rfl, stale', drops_of_move live present running stepped move⟩
    · have looks := s.looks_barrierOpens b
      generalize answer : s.barrierOpens b = told at looks
      cases looks with
      | opens opens => exact absurd stale (opens.1 d)
      | waits fresh => exact absurd stale (fresh d)
      | @stale d' stale' =>
        refine ⟨_, d', rfl, stale', drops_of_move live present running ?_ (.give rfl answer)⟩
        simp [stepProcessor?, running, answer]
  · rcases awaits with ⟨running, found⟩ | running
    · obtain ⟨deeds, t, stepped, move, begins⟩ := exists_begins live running found
      cases begins with
      | orphan named gone => cases (usable _ named).symm.trans gone
      | stale stale => exact absurd stale (fresh _)
      | hold =>
        have after := get?_setProcessor s q ⟨index, .held b⟩
        rw [live, Option.map_some] at after
        refine ⟨_, _, .inr ⟨⟨running, stepped, move, after⟩, rfl, rfl⟩, fun met => ?_,
          fun unmet => ?_⟩
        · exact passes_of_opens after sized rfl ⟨fresh, met⟩ usable
        · exact stepProcessor?_of_unmet rfl fresh unmet
    · refine ⟨s, q, .inl ⟨running, rfl, rfl⟩, fun met => ?_, fun unmet => ?_⟩
      · exact passes_of_opens live sized running ⟨fresh, met⟩ usable
      · exact stepProcessor?_of_unmet running fresh unmet
  · exact finishes_of_live live sized running usable

/-! ### Runs -/

/-- A queue stays, and the packet of an index of it stays in its slot. -/
def Spares (h : Handle) (index : UInt64) (s t : Session) : Prop :=
  ∀ q, s.queues.get? h = some q →
    ∃ q', t.queues.get? h = some q' ∧ q'.ring.read index = q.ring.read index

/-- What does not touch a queue leaves it and its packets. -/
theorem Step.spares {turn : Turn} (step : Step turn s t) (wf : s.WellFormed)
    (spared : ¬ turn.Touches h) : Spares h index s t := by
  intro q live
  have held := Directory.held?_of_get? live
  have same := ((step.changes wf.queues).heldQueue?_eq wf.queues held spared).1
  exact ⟨q, same.trans live, rfl⟩

/-- Runs of a session in which a queue stays, and the packet of an index of it is left to its
processor, with what that does. Whatever else happens meanwhile may happen. -/
inductive Watch (h : Handle) (index : UInt64) (s : Session) : List Deed → Session → Prop where
  | refl : Watch h index s [] s
  | rehost {log : List Deed} {m : Session} (before : Watch h index s log m) (host : Host) :
      Watch h index s log (m.rehost host)
  | aside {turn : Turn} {log : List Deed} {m t : Session} (before : Watch h index s log m)
      (step : Step turn m t) (others : turn ≠ .processor h) (spares : Spares h index m t) :
      Watch h index s log t
  | attend {log deeds : List Deed} {m t : Session} {q q' : Queue} {p : Processor}
      (before : Watch h index s log m) (live : m.queues.get? h = some q)
      (takes : m.Takes q p deeds t q') : Watch h index s (log ++ deeds) t

variable {log : List Deed}

theorem Watch.reachable (run : Watch h index s log t) (reachable : s.Reachable) : t.Reachable := by
  induction run with
  | refl => exact reachable
  | rehost _ host before => exact before.rehost host
  | aside _ step _ _ before => exact before.step step
  | attend _ live takes before => exact before.step (.processor live takes.stepped)

/-- There was a moment in a run, before which nothing had been done with the packet. -/
def During (h : Handle) (index : UInt64) (moment : Session → Prop) (s : Session) (log : List Deed)
    (t : Session) : Prop :=
  ∃ m, Watch h index s [] m ∧ moment m ∧ Watch h index m log t

/-- What becomes of a barrier along a run, with what was done so far and the queue in the end. -/
inductive Fate (h : Handle) (index : UInt64) (b : PendingBarrier) (s : Session) :
    List Deed → Session → Queue → Prop where
  /-- The processor waits. Nothing was done with the packet, or any other, and the application was
  told nothing. -/
  | waits {t : Session} {q : Queue} (awaits : q.Awaits index b) (untold : t.told h = s.told h) :
      Fate h index b s [] t q
  /-- There was a moment at which the barrier let the processor go on. -/
  | opened {t : Session} {q : Queue} (running : q.processor = some ⟨index, .finishing b.completion⟩)
      (opened : During h index b.Opens s [] t) (untold : t.told h = s.told h) :
      Fate h index b s [] t q
  | completed {rest : List Deed} {t : Session} {q : Queue}
      (opened : During h index b.Opens s (.completed index b.completion :: rest) t) :
      Fate h index b s (.completed index b.completion :: rest) t q
  /-- There was a moment at which one of the signals was gone that the barrier depends on. -/
  | failed {d : Handle} {t : Session} {q : Queue}
      (stale : During h index (b.Stale · d) s [.failed index (.invalidSignal d)] t)
      (state : q.state = .inactive) (running : q.processor = some ⟨index, .stopped⟩) :
      Fate h index b s [.failed index (.invalidSignal d)] t q
  /-- There was a moment at which the completion signal was gone. -/
  | orphaned {c : Handle} {t : Session} {q : Queue} (named : b.completion = some c)
      (gone : During h index (·.signals.isLive c = false) s [.failed index (.invalidSignal c)] t)
      (state : q.state = .inactive) (running : q.processor = some ⟨index, .stopped⟩) :
      Fate h index b s [.failed index (.invalidSignal c)] t q

/-! ### What becomes of a barrier -/

/-- A processor that holds a barrier goes on, or the packet fails. -/
theorem Move.looks {deeds : List Deed} (move : s.Move q ⟨index, .held b⟩ deeds t) :
    b.Opens s ∧ deeds = [] ∧ t = s.setProcessor q ⟨index, .finishing b.completion⟩ ∨
      ∃ d, b.Stale s d ∧ deeds = [.failed index (.invalidSignal d)] ∧
        t = s.failPacket q ⟨index, .held b⟩ (.invalidSignal d) := by
  have looks := s.looks_barrierOpens b
  cases move with
  | pass state answer =>
    cases state
    rw [answer] at looks
    cases looks with
    | opens opens => exact .inl ⟨opens, rfl, rfl⟩
  | give state answer =>
    cases state
    rw [answer] at looks
    cases looks with
    | stale stale => exact .inr ⟨_, stale, rfl, rfl⟩
  | look state | resume state | leave state | skip state | run state | panic state | hold state
  | refuse state | crash state | complete state | miss state => cases state

/-- What is left of a queue whose packet failed. -/
theorem left_failPacket {cause : Fault} (live : s.queues.get? q.handle = some q)
    (present : q.state ≠ .destroyed)
    (after : (s.failPacket q p cause).queues.get? q.handle = some q') :
    q'.state = .inactive ∧ q'.processor = some { p with state := .stopped } := by
  rw [get?_failPacket, live, Option.map_some] at after
  cases after
  exact ⟨state_inactivate present, rfl⟩

theorem left_setProcessor {p' : Processor} (live : s.queues.get? q.handle = some q)
    (after : (s.setProcessor q p').queues.get? q.handle = some q') :
    q'.processor = some p' := by
  rw [get?_setProcessor, live, Option.map_some] at after
  cases after
  rfl

/-- Nothing but the step of its own processor tells the application of a queue. -/
theorem Step.untold {turn : Turn} (step : Step turn s t) (wf : s.WellFormed)
    (others : turn ≠ .processor h) : t.told h = s.told h := by
  have changes := step.changes wf.queues
  cases step with
  | application room => exact told_congr (notices_perform room wf _) h
  | processor => exact changes.told h fun same => others (congrArg Turn.processor same.symm)

namespace During

variable {moment : Session → Prop}

theorem goesOn (during : During h index moment s log m)
    (on : ∀ first log, Watch h index first log m → Watch h index first log t) :
    During h index moment s log t := by
  obtain ⟨first, before, now, after⟩ := during
  exact ⟨first, before, now, on first log after⟩

theorem attend {deeds : List Deed} (during : During h index moment s log m)
    (live : m.queues.get? h = some q) (takes : m.Takes q p deeds t q') :
    During h index moment s (log ++ deeds) t := by
  obtain ⟨first, before, now, after⟩ := during
  exact ⟨first, before, now, after.attend live takes⟩

end During

namespace Fate

/-- A barrier keeps its fate while its processor does nothing and its packet stays. -/
theorem goesOn (fate : Fate h index b s log m q)
    (on : ∀ first log, Watch h index first log m → Watch h index first log t)
    (same : q'.processor = q.processor) (slot : q'.ring.read index = q.ring.read index)
    (ended : q.state = .inactive → q'.state = .inactive) (untold : t.told h = m.told h) :
    Fate h index b s log t q' := by
  cases fate with
  | waits awaits quiet =>
    refine .waits ?_ (untold.trans quiet)
    rcases awaits with ⟨running, found⟩ | running
    · exact .inl ⟨same.trans running, slot ▸ found⟩
    · exact .inr (same.trans running)
  | opened running opened quiet =>
    exact .opened (same.trans running) (opened.goesOn on) (untold.trans quiet)
  | completed opened => exact .completed (opened.goesOn on)
  | failed stale state running =>
    exact .failed (stale.goesOn on) (ended state) (same.trans running)
  | orphaned named gone state running =>
    exact .orphaned named (gone.goesOn on) (ended state) (same.trans running)

/-- Whatever else happens, a barrier keeps its fate. -/
theorem aside {turn : Turn} (fate : Fate h index b s log m q) (reachable : m.Reachable)
    (live : m.queues.get? h = some q) (step : Step turn m t) (others : turn ≠ .processor h)
    (spares : Spares h index m t) :
    ∃ q', t.queues.get? h = some q' ∧ Fate h index b s log t q' := by
  obtain ⟨q', after, slot⟩ := spares q live
  have later := step.continues reachable.wellFormed others live after
  have ended : q.state = .inactive → q'.state = .inactive :=
    state_eq_inactive later ((reachable.step step).state_ne_destroyed after)
  exact ⟨q', after, fate.goesOn (fun _ _ run => run.aside step others spares) later.processor slot
    ended (step.untold reachable.wellFormed others)⟩

/-- A step of the processor. -/
theorem attend {deeds : List Deed} (fate : Fate h index b s log m q) (reachable : m.Reachable)
    (run : Watch h index s log m) (live : m.queues.get? h = some q)
    (takes : m.Takes q p deeds t q') : Fate h index b s (log ++ deeds) t q' := by
  obtain rfl : q.handle = h := reachable.wellFormed.queues.named h q live
  have present := reachable.state_ne_destroyed live
  have last : Watch q.handle index m deeds t := Watch.refl.attend live takes
  obtain ⟨running, stepped, move, after⟩ := takes
  cases fate with
  | waits awaits quiet =>
    rcases awaits with ⟨ready, found⟩ | held
    · cases ready.symm.trans running
      cases move.begins live running stepped found with
      | orphan named gone =>
        obtain ⟨state, stopped⟩ := left_failPacket live present after
        exact .orphaned named ⟨m, run, gone, last⟩ state stopped
      | stale stale =>
        obtain ⟨state, stopped⟩ := left_failPacket live present after
        exact .failed ⟨m, run, stale, last⟩ state stopped
      | hold => exact .waits (.inr (left_setProcessor live after)) quiet
    · cases held.symm.trans running
      rcases move.looks with ⟨opens, rfl, rfl⟩ | ⟨d, stale, rfl, rfl⟩
      · exact .opened (left_setProcessor live after) ⟨m, run, opens, last⟩ quiet
      · obtain ⟨state, stopped⟩ := left_failPacket live present after
        exact .failed ⟨m, run, stale, last⟩ state stopped
  | opened finishing opened =>
    cases finishing.symm.trans running
    have more := opened.attend live ⟨running, stepped, move, after⟩
    cases move with
    | complete state =>
      cases state
      exact .completed more
    | miss state stale =>
      have named : b.completion = some _ := ProcessorState.finishing.inj state
      obtain ⟨state, stopped⟩ := left_failPacket live present after
      exact .orphaned named ⟨m, run, stale, last⟩ state stopped
    | look state | resume state | leave state | skip state | run state | panic state | hold state
    | refuse state | crash state | pass state | give state => cases state
  | completed opened =>
    exact .completed (opened.attend live ⟨running, stepped, move, after⟩)
  | failed _ _ stopped | orphaned _ _ _ stopped =>
    cases stopped.symm.trans running
    exact absurd rfl move.not_stopped

end Fate

/-- Along a run a barrier comes to one of its fates. -/
theorem Watch.fate (run : Watch h index s log t) (reachable : s.Reachable)
    (live : s.queues.get? h = some q) (awaits : q.Awaits index b) :
    ∃ q', t.queues.get? h = some q' ∧ Fate h index b s log t q' := by
  induction run with
  | refl => exact ⟨q, live, .waits awaits rfl⟩
  | rehost _ host ih =>
    obtain ⟨q', live, fate⟩ := ih
    exact ⟨q', live, fate.goesOn (fun _ _ run => run.rehost host) rfl rfl id rfl⟩
  | aside before step others spares ih =>
    obtain ⟨q', live, fate⟩ := ih
    exact fate.aside (before.reachable reachable) live step others spares
  | attend before found takes ih =>
    obtain ⟨q', live, fate⟩ := ih
    have middle := before.reachable reachable
    obtain rfl := Option.some.inj (found.symm.trans live)
    refine ⟨_, ?_, fate.attend middle before found takes⟩
    exact middle.wellFormed.queues.named h _ found ▸ takes.live

/-! ### Signals that are gone -/

/-- The signals that a held barrier depends on were issued: they were live when the processor
examined the barrier. -/
def HeldIssued (s : Session) (q : Queue) : Prop :=
  ∀ index b, q.processor = some ⟨index, .held b⟩ → ∀ d ∈ b.dependencies, s.signals.Issued d

theorem Step.heldIssued {turn : Turn} (step : Step turn s t) (reachable : s.Reachable)
    (before : ∀ h q, s.queues.get? h = some q → s.HeldIssued q)
    (after : t.queues.get? h = some q') : t.HeldIssued q' := by
  intro index b held d named
  have wf := reachable.wellFormed
  have issued := (step.signals wf).issued reachable.signals (h := d)
  cases step with
  | application room ready =>
    rcases origin_perform room wf reachable.signals _ after with ⟨q, live, later⟩ | fresh
    · exact issued (before h q live index b (later.processor ▸ held) d named)
    · cases (fresh.started _ held).1
  | @processor _ _ k q live stepped =>
    obtain rfl : q.handle = k := wf.queues.named k q live
    rcases origin_step wf live stepped after with ⟨rfl, p, running, left⟩ | ⟨-, same⟩
    · cases left with
      | look | resume | stop | finish | fail | crash | next | exhaust => cases held
      | hold state found =>
        cases held
        obtain ⟨index, _⟩ := p
        cases state
        obtain ⟨deeds, m, stepped', -, begins⟩ := exists_begins live running found
        obtain rfl := Option.some.inj (stepped.symm.trans stepped')
        cases begins with
        | orphan | stale =>
          cases (left_failPacket live (reachable.state_ne_destroyed live) after).2
        | hold fresh =>
          obtain ⟨signal, there⟩ := PendingBarrier.exists_of_not_stale fresh named
          exact .inl (congrArg Option.isSome there)
    · exact issued (before h q' same index b held d named)

theorem Reachable.heldIssued (reachable : s.Reachable) (live : s.queues.get? h = some q) :
    s.HeldIssued q := by
  induction reachable generalizing h q with
  | @opened c s opened =>
    obtain rfl := openConfig_eq_ok opened
    cases live.symm.trans (Directory.get?_empty h)
  | rehost _ _ ih => exact ih live
  | step before step ih => exact step.heldIssued before (fun _ _ => ih) live

/-- A signal that a held barrier depends on was destroyed if it is not live. -/
theorem Reachable.spent_of_stale (reachable : s.Reachable) (live : s.queues.get? h = some q)
    (held : q.processor = some ⟨index, .held b⟩) (stale : b.Stale s d) :
    s.signals.live.Spent d := by
  have issued := reachable.heldIssued live index b held d stale.1
  exact issued.resolve_left (Bool.eq_false_iff.mp stale.2)

/-- A signal that was destroyed is gone for good. -/
theorem Reachable.stale_of_spent (reachable : s.Reachable) (named : d ∈ b.dependencies)
    (gone : s.signals.live.Spent d) : b.Stale s d := by
  have none : s.signals.get? d = none := gone.get?_eq_none reachable.signals.live
  exact ⟨named, congrArg Option.isSome none⟩

theorem Watch.spent (run : Watch h index s log t) (reachable : s.Reachable)
    (gone : s.signals.live.Spent d) : t.signals.live.Spent d := by
  have step : ∀ {turn : Turn} {m t : Session}, Step turn m t → m.Reachable →
      m.signals.live.Spent d → t.signals.live.Spent d := fun step before gone =>
    (step.signals before.wellFormed).spent before.signals gone
  induction run with
  | refl => exact gone
  | rehost _ _ ih => exact ih
  | aside before now _ _ ih => exact step now (before.reachable reachable) ih
  | attend before live takes ih =>
    exact step (.processor live takes.stepped) (before.reachable reachable) ih

/-- The processor holds the barrier as before, or the packet has failed. -/
def Doomed (h : Handle) (index : UInt64) (b : PendingBarrier) (log : List Deed) (t : Session) :
    Prop :=
  ∃ q, t.queues.get? h = some q ∧
    (log = [] ∧ q.processor = some ⟨index, .held b⟩ ∨
      ∃ d, b.Stale t d ∧ log = [.failed index (.invalidSignal d)] ∧ q.state = .inactive ∧
        q.processor = some ⟨index, .stopped⟩)

/-- Once a signal is gone that a held barrier depends on, it is gone for good, and the packet fails
as soon as the processor looks. -/
theorem Watch.doomed (run : Watch h index s log t) (reachable : s.Reachable)
    (live : s.queues.get? h = some q) (held : q.processor = some ⟨index, .held b⟩)
    (stale : b.Stale s d) : b.Stale t d ∧ Doomed h index b log t := by
  have gone := reachable.spent_of_stale live held stale
  refine ⟨(run.reachable reachable).stale_of_spent stale.1 (run.spent reachable gone), ?_⟩
  suffices kept : ∃ q, t.queues.get? h = some q ∧
      (log = [] ∧ q.processor = some ⟨index, .held b⟩ ∨
        ∃ d ∈ b.dependencies, t.signals.live.Spent d ∧ log = [.failed index (.invalidSignal d)] ∧
          q.state = .inactive ∧ q.processor = some ⟨index, .stopped⟩) by
    obtain ⟨q, live, holds | ⟨d, named, gone, rest⟩⟩ := kept
    · exact ⟨q, live, .inl holds⟩
    · exact ⟨q, live, .inr ⟨d, (run.reachable reachable).stale_of_spent named gone, rest⟩⟩
  induction run with
  | refl => exact ⟨q, live, .inl ⟨rfl, held⟩⟩
  | rehost _ _ ih => exact ih
  | @aside turn log m t before step others spares ih =>
    have middle := before.reachable reachable
    obtain ⟨q₁, found, now⟩ := ih
    obtain ⟨q₂, after, -⟩ := spares q₁ found
    have later := step.continues middle.wellFormed others found after
    refine ⟨q₂, after, now.imp ?_ ?_⟩
    · rintro ⟨rfl, running⟩
      exact ⟨rfl, later.processor.trans running⟩
    · rintro ⟨d', named, spent, rfl, state, running⟩
      have spent := (Watch.aside .refl step others spares).spent middle spent
      have present := (middle.step step).state_ne_destroyed after
      exact ⟨d', named, spent, rfl, state_eq_inactive later present state,
        later.processor.trans running⟩
  | @attend log deeds m t q₁ q₂ p before found takes ih =>
    have middle := before.reachable reachable
    obtain ⟨q', same, now⟩ := ih
    obtain rfl := Option.some.inj (found.symm.trans same)
    obtain rfl : q₁.handle = h := middle.wellFormed.queues.named h q₁ found
    obtain ⟨running, stepped, move, after⟩ := takes
    refine ⟨q₂, after, .inr ?_⟩
    rcases now with ⟨rfl, holding⟩ | ⟨-, -, -, -, -, stopped⟩
    · cases holding.symm.trans running
      rcases move.looks with ⟨opens, -⟩ | ⟨d', stale', rfl, rfl⟩
      · have still := middle.stale_of_spent stale.1 (before.spent reachable gone)
        exact absurd still (opens.1 d)
      · have spent := middle.spent_of_stale found holding stale'
        obtain ⟨state, stopped⟩ :=
          left_failPacket found (middle.state_ne_destroyed found) after
        refine ⟨d', stale'.1, ?_, rfl, state, stopped⟩
        rw [signals_failPacket]
        exact spent
    · cases stopped.symm.trans running
      exact absurd rfl move.not_stopped

/-! ### The barrier at the head of a queue -/

/-- A barrier at the head of a queue that its processor has come to: what becomes of it along a run,
and what the processor does with it as soon as it is its turn.

If one of the signals is gone that the barrier depends on, the packet fails. Otherwise the processor
completes it if its condition holds, and if not, it does nothing at all. The processor has gone on
only if there was a moment at which the condition held and no signal was gone, and up to then it has
done nothing with the packet or with any other. -/
theorem Reachable.barrier_opens (reachable : s.Reachable) (live : s.queues.get? h = some q)
    (ready : q.processor = some ⟨index, .ready⟩)
    (found : (q.ring.read index).pendingBarrier? = some b) (run : Watch h index s log t) :
    ∃ q', t.queues.get? h = some q' ∧ Fate h index b s log t q' ∧
      ((∀ c, b.completion = some c → t.signals.isLive c = true) → t.Responds q' index b) ∧
      (q'.processor = some ⟨index, .held b⟩ → ∀ d, b.Stale t d → ∀ more u,
        Watch h index t more u → b.Stale u d ∧ Doomed h index b more u) := by
  obtain ⟨q', after, fate⟩ := run.fate reachable live (.inl ⟨ready, found⟩)
  have later := run.reachable reachable
  refine ⟨q', after, fate, fun usable => later.responds after usable, ?_⟩
  intro held d stale more u on
  exact on.doomed later after held stale

/-- The signal that the barrier of `barred` depends on reads 1. Once the application has stored 0 in
it, the processor completes the barrier. -/
theorem barrier_opens_at_zero : ∃ (q : Queue) (b : PendingBarrier) (t : Session) (q' : Queue),
    barred.queues.get? (.ofParts 0 1) = some q ∧ q.Awaits 0 b ∧ ¬ b.Met barred ∧
      ((Operation.storeSignal (.ofParts 0 1) 0 .relaxed).perform barred).Examines q 0 b t q' ∧
      t.Passes q' 0 b := by
  have opened : Reachable (.ofConfig .default) := .opened (c := .default) rfl
  have signalled := opened.step (.lasting (o := .createSignal 1 0 [])
    ⟨by decide, by decide, by decide⟩ ⟨nofun, nofun⟩)
  have queued := signalled.step (.lasting
    (o := .createQueue (.ofParts 1 1) 64 .multi ⟨0, 0, true⟩)
    ⟨by decide, by decide, by decide⟩ ⟨nofun, nofun⟩)
  have reachable : barred.Reachable := queued.step (.lasting
    (o := .barrierAnd (.ofParts 0 1) [.ofParts 0 1] none)
    ⟨by decide, by decide, by decide⟩ ⟨nofun, nofun⟩)
  obtain ⟨q, b, live, stays, ready, found, all, dependencies, completion⟩ :
      ∃ (q : Queue) (b : PendingBarrier), barred.queues.get? (.ofParts 0 1) = some q ∧
        ((Operation.storeSignal (.ofParts 0 1) 0 .relaxed).perform barred).queues.get?
          (.ofParts 0 1) = some q ∧
        q.processor = some ⟨0, .ready⟩ ∧ (q.ring.read 0).pendingBarrier? = some b ∧
        b.all = true ∧ b.dependencies = [.ofParts 0 1] ∧ b.completion = none :=
    ⟨_, _, rfl, rfl, rfl, rfl, rfl, rfl, rfl⟩
  have step := Step.lasting (s := barred) (o := .storeSignal (.ofParts 0 1) 0 .relaxed)
    ⟨by decide, by decide, by decide⟩ ⟨nofun, nofun⟩
  have run : Watch (.ofParts 0 1) 0 barred [] _ :=
    Watch.refl.aside step nofun (step.spares reachable.wellFormed id)
  obtain ⟨q', after, -, responds, -⟩ := reachable.barrier_opens live ready found run
  obtain rfl := Option.some.inj (stays.symm.trans after)
  have awaits : q.Awaits 0 b := .inl ⟨ready, found⟩
  have does := responds fun c named => by simp [completion] at named
  obtain ⟨t, q', examines, passes, -⟩ := does.live awaits fun d stale => by
    obtain ⟨named, gone⟩ := stale
    rw [dependencies] at named
    obtain rfl := List.mem_singleton.mp named
    cases gone
  refine ⟨q, b, t, q', live, awaits, fun met => ?_, examines, passes ?_⟩
  · rw [PendingBarrier.Met, all, dependencies] at met
    obtain ⟨signal, there, zero⟩ := met _ (List.mem_singleton_self _)
    cases there
    cases zero
  · rw [PendingBarrier.Met, all, dependencies]
    intro d named
    obtain rfl := List.mem_singleton.mp named
    exact ⟨_, rfl, rfl⟩

end Session

end Accelerator
