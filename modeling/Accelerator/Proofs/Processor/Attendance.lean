import Accelerator.Proofs.Processor.Barriers
import Accelerator.Proofs.Processor.Dispatch
import Accelerator.Proofs.Runs.Origins

/-!
# Attending to queues

Whether a command processor stays with its queue. The processor of an active queue has work to do as
long as a packet is published at its index, unless the packet is a barrier whose signals do not let
it go on. It leaves its queue for one of three reasons: the queue accepts no more reservations, or
its doorbell was destroyed, or a number did not fit its word. Only in the first case is this
anything that the application can see. In the other two cases the queue stays active, takes more
packets, and nobody consumes them.

The processor keeps its own index. That is the read index as long as the application, which may set
the read index of any queue and overwrite any slot, leaves both to the processor.

## What the application may do

Runs in `Session.Tended` forbid two things only: to move the read index of the queue, and to change
the packet there once it is published. All else is allowed, also to end the queue, to destroy its
doorbell, or to publish where nothing was reserved. The first of the two keeps the index of the
processor equal to the read index, and the second keeps a barrier that was examined equal to the one
in the slot.

That a doorbell was destroyed is not the same as that it is not live. `Session.Attended.doorbell`
says that it was issued, so if it is not live any more its handle is spent and stays so.

## Main definitions

* `Session.Leaves`: the queue that a step of its processor leaves.
* `Session.Attended`: a queue has a processor, which stays unless there is a reason.
* `Session.Tended`: runs that leave the read index, and the packet there, to the processor.

## Main results

* `Session.Reachable.attended`: along a run all queues are attended to.
* `Session.stepProcessor?_of_isAtRest`: what a processor at rest can still do.
* `Session.Reachable.head_waits`: what is at the read index when a processor is at rest.
* `Session.strands_packet`: a packet for which there is no processor any more.
-/

namespace Accelerator

namespace Session

variable {s t : Session} {h : Handle} {q q' : Queue} {p : Processor}

/-! ### What a step leaves of a queue -/

/-- The queue that a step of its processor leaves. -/
inductive Leaves (s : Session) (q : Queue) (p : Processor) : Queue → Prop where
  | look (vacant : (q.ring.header p.index).isUnpublished = true) :
      Leaves s q p (q.setProcessor { p with state := .idle })
  | resume (stays : (q.isActive && s.signals.isLive q.doorbell) = true) :
      Leaves s q p (q.setProcessor { p with state := .ready })
  | stop (gone : (q.isActive && s.signals.isLive q.doorbell) = false) :
      Leaves s q p (q.setProcessor { p with state := .stopped })
  | hold {b : PendingBarrier} (state : p.state = .ready)
      (found : (q.ring.read p.index).pendingBarrier? = some b) :
      Leaves s q p (q.setProcessor { p with state := .held b })
  | finish (completion : Option Handle) :
      Leaves s q p (q.setProcessor { p with state := .finishing completion })
  | fail : Leaves s q p (q.inactivate.setProcessor { p with state := .stopped })
  | crash : Leaves s q p (q.setProcessor { p with state := .crashed })
  | next : Leaves s q p
      ((q.modifyRing fun r => (r.retire p.index).setReadIndex (p.index + 1)).setProcessor
        ⟨p.index + 1, .ready⟩)
  /-- The packet was that of the last index of all. -/
  | exhaust : Leaves s q p
      ((q.modifyRing (·.retire p.index)).setProcessor { p with state := .crashed })

namespace Leaves

variable {p' : Processor}

/-- The queue keeps its agent, its doorbell, and a processor. -/
theorem keeps (left : s.Leaves q p q') :
    q'.agent = q.agent ∧ q'.doorbell = q.doorbell ∧ q'.processor ≠ none := by
  cases left with
  | look | resume | stop | hold | finish | crash | next | exhaust =>
    exact ⟨rfl, rfl, Option.some_ne_none _⟩
  | fail =>
    have later := q.continues_inactivate
    exact ⟨later.agent, later.doorbell, Option.some_ne_none _⟩

/-- The processor stops if the queue has ended, or its doorbell is gone. -/
theorem reason (left : s.Leaves q p q') (running : q'.processor = some p')
    (state : p'.state = .stopped) :
    q'.isActive = false ∨ s.signals.isLive q.doorbell = false := by
  cases left with
  | stop gone => exact Bool.and_eq_false_iff.mp gone
  | fail => exact .inl (inactivate_isActive q)
  | look | resume | hold | finish | crash | next | exhaust =>
    cases running
    cases state

end Leaves

/-- There is no index after the last one. -/
theorem get?_advance_last (s : Session) (q : Queue) {p : Processor}
    (last : ¬ p.index.toNat + 1 < 2 ^ 64) :
    (s.advance q p).queues.get? q.handle = (s.queues.get? q.handle).map fun q =>
      (q.modifyRing (·.retire p.index)).setProcessor { p with state := .crashed } := by
  have none : Word.add? p.index 1 = none := if_neg last
  rw [advance, none]
  dsimp only
  rw [get?_setProcessor, modifyQueue, Directory.get?_modify_self, Option.map_map]
  rfl

theorem get?_advance_cases (s : Session) (q : Queue) (p : Processor) :
    (s.advance q p).queues.get? q.handle = (s.queues.get? q.handle).map (fun q =>
        (q.modifyRing fun r => (r.retire p.index).setReadIndex (p.index + 1)).setProcessor
          ⟨p.index + 1, .ready⟩) ∨
      (s.advance q p).queues.get? q.handle = (s.queues.get? q.handle).map fun q =>
        (q.modifyRing (·.retire p.index)).setProcessor { p with state := .crashed } := by
  by_cases fits : p.index.toNat + 1 < 2 ^ 64
  · exact .inl (get?_advance s q fits)
  · exact .inr (get?_advance_last s q fits)

/-- A processor that comes to hold a barrier has found it in the slot of its index. -/
theorem pendingBarrier?_of_hold {b : PendingBarrier} (running : q.processor = some p)
    (state : p.state = .ready) (published : (q.ring.header p.index).isUnpublished = false)
    (stepped : s.stepProcessor? q = some (s.setProcessor q { p with state := .held b }))
    (live : s.queues.get? q.handle = some q) :
    (q.ring.read p.index).pendingBarrier? = some b := by
  have same := queues_examine s q p.index (q.ring.word p.index)
  rw [stepProcessor?_ready running state published] at stepped
  rcases examined : s.examine q p.index (q.ring.word p.index) with ⟨found, m⟩
  rw [examined] at same stepped
  have here : m.queues.get? q.handle = some q := same ▸ live
  -- what the processor does now tells what the packet came to
  have doing := congrArg (fun u : Session => (u.queues.get? q.handle).map Queue.processor)
    (Option.some.inj stepped)
  cases found with
  | held b' =>
    dsimp only at doing
    rw [get?_setProcessor, here, get?_setProcessor, live] at doing
    cases doing
    exact examine_eq_held examined
  | done | crashed =>
    dsimp only at doing
    rw [get?_setProcessor, here, get?_setProcessor, live] at doing
    cases doing
  | failed cause =>
    dsimp only at doing
    rw [get?_failPacket, here, get?_setProcessor, live] at doing
    cases doing

/-- A step of a processor leaves its own queue in one of these ways. -/
theorem Move.leaves {deeds : List Deed} (move : s.Move q p deeds t)
    (running : q.processor = some p) (stepped : s.stepProcessor? q = some t)
    (live : s.queues.get? q.handle = some q) (after : t.queues.get? q.handle = some q') :
    s.Leaves q p q' := by
  have set : ∀ {m : Session} (p' : Processor), m.queues.get? q.handle = some q →
      (m.setProcessor q p').queues.get? q.handle = some q' → q' = q.setProcessor p' := by
    intro m p' here found
    rw [get?_setProcessor, here, Option.map_some] at found
    exact (Option.some.inj found).symm
  have fail : ∀ {m : Session} (cause : Fault), m.queues.get? q.handle = some q →
      (m.failPacket q p cause).queues.get? q.handle = some q' →
      q' = q.inactivate.setProcessor { p with state := .stopped } := by
    intro m cause here found
    rw [get?_failPacket, here, Option.map_some] at found
    exact (Option.some.inj found).symm
  cases move with
  | look state vacant => exact set _ live after ▸ .look vacant
  | resume state stays => exact set _ live after ▸ .resume stays
  | leave state gone => exact set _ live after ▸ .stop gone
  | skip | pass => exact set _ live after ▸ .finish _
  | run => exact set _ (by exact live) after ▸ .finish _
  | panic => exact fail _ (by exact live) after ▸ .fail
  | refuse | give | miss => exact fail _ live after ▸ .fail
  | crash => exact set _ live after ▸ .crash
  | @hold b state published type signal =>
    have found := pendingBarrier?_of_hold running state published stepped live
    exact set _ live after ▸ .hold state found
  | @complete completion =>
    have here : (s.countDown completion).queues.get? q.handle = some q :=
      (sameQueues_countDown s completion).queues ▸ live
    rcases get?_advance_cases (s.countDown completion) q p with same | same
    all_goals
      rw [same, here, Option.map_some] at after
      cases after
    · exact .next
    · exact .exhaust

/-- A step of a processor leaves the other queues alone. -/
theorem Move.get?_of_ne {deeds : List Deed} (move : s.Move q p deeds t) (other : h ≠ q.handle) :
    t.queues.get? h = s.queues.get? h := by
  have set : ∀ (m : Session) (p' : Processor),
      (m.setProcessor q p').queues.get? h = m.queues.get? h := fun _ _ =>
    Directory.get?_modify_of_ne other _
  have change : ∀ (m : Session) (f : Queue → Queue),
      (m.modifyQueue q.handle f).queues.get? h = m.queues.get? h := fun _ _ =>
    Directory.get?_modify_of_ne other _
  have fail : ∀ (m : Session) (cause : Fault),
      (m.failPacket q p cause).queues.get? h = m.queues.get? h := fun m cause => by
    rw [queues_failPacket, set, change]
  cases move with
  | look | resume | leave | skip | hold | crash | pass => exact set s _
  | run => exact set _ _
  | panic => exact fail _ _
  | refuse | give | miss => exact fail s _
  | @complete completion =>
    have counted := (sameQueues_countDown s completion).queues
    rw [advance]
    split
    · rw [set, change, counted]
    · rw [set, change, change, counted]

/-- The live queues after a step of a processor: its own, as the step leaves it, and the others. -/
theorem origin_step (wf : s.WellFormed) {k : Handle} (live : s.queues.get? k = some q)
    (stepped : s.stepProcessor? q = some t) (after : t.queues.get? h = some q') :
    (h = k ∧ ∃ p, q.processor = some p ∧ s.Leaves q p q') ∨
      h ≠ k ∧ s.queues.get? h = some q' := by
  obtain rfl : q.handle = k := wf.queues.named k q live
  obtain ⟨p, deeds, running, move⟩ := Move.exists_of_stepProcessor? stepped
  by_cases own : h = q.handle
  · exact .inl ⟨own, p, running, move.leaves running stepped live (own ▸ after)⟩
  · exact .inr ⟨own, (move.get?_of_ne own).symm.trans after⟩

/-- Whatever happens in a session but the step of a queue's own processor, the queue goes on if it
stays live. -/
theorem Step.continues {turn : Turn} (step : Step turn s t) (wf : s.WellFormed)
    (others : turn ≠ .processor h) (before : s.queues.get? h = some q)
    (after : t.queues.get? h = some q') : q.Continues q' := by
  cases step with
  | @application _ o room =>
    rcases reloads_or_effect room wf.queues o with reloads | effect
    · exact (queuesContinue_of_eq reloads.sameQueues.queues).of_live before after
    · exact effect.continues room wf before after
  | processor live stepped =>
    rcases origin_step wf live stepped after with ⟨rfl, -⟩ | ⟨-, same⟩
    · exact absurd rfl others
    · obtain rfl := Option.some.inj (before.symm.trans same)
      exact ⟨rfl, rfl, rfl, id, rfl⟩

/-! ### Processors that stay -/

/-- A queue is attended to: if its agent runs kernels it has a processor, and that has stopped only
if the queue has ended or its doorbell was destroyed. -/
structure Attended (s : Session) (q : Queue) : Prop where
  staffed : ∀ a, q.agent.bind s.agents.get? = some a →
    a.info.features.contains .kernelDispatch = true → q.processor ≠ none
  doorbell : ∀ p, q.processor = some p → s.signals.Issued q.doorbell
  stopped : ∀ p, q.processor = some p → p.state = .stopped →
    q.isActive = false ∨ s.signals.live.Spent q.doorbell

theorem Fresh.attended (fresh : s.Fresh q) : s.Attended q where
  staffed := fresh.staffed
  doorbell p running := .inl (fresh.started p running).2.2
  stopped p running state := by
    obtain ⟨rfl, -⟩ := fresh.started p running
    cases state

/-- An agent that is found later was there before, with the same features. -/
theorem SameAgents.staffed (same : s.SameAgents t) {agent : Option Handle}
    {staffed : Prop} (before : ∀ a, agent.bind s.agents.get? = some a →
      a.info.features.contains .kernelDispatch = true → staffed) :
    ∀ a, agent.bind t.agents.get? = some a →
      a.info.features.contains .kernelDispatch = true → staffed := by
  intro a host kernels
  cases agent with
  | none => cases host
  | some k =>
    have found : t.agents.get? k = some a := host
    have shown := same k
    rw [found, Option.map_some] at shown
    obtain ⟨b, there, equal⟩ := Option.map_eq_some_iff.mp shown.symm
    have info : b.info = a.info := congrArg Prod.snd equal
    exact before b there (info ▸ kernels)

namespace Attended

variable (attended : s.Attended q)
variable (wf : s.signals.WellFormed Signal.handle) (signals : s.SignalsEvolve t)
include attended wf signals

theorem goesOn (agents : s.SameAgents t) (later : q.Continues q') : t.Attended q' where
  staffed := by
    rw [later.agent, later.processor]
    exact agents.staffed attended.staffed
  doorbell p running := by
    rw [later.doorbell]
    exact signals.issued wf (attended.doorbell p (later.processor ▸ running))
  stopped p running state := by
    rw [later.doorbell]
    rcases attended.stopped p (later.processor ▸ running) state with ended | gone
    · exact .inl (Bool.eq_false_iff.mpr fun active =>
        Bool.eq_false_iff.mp ended (later.isActive active))
    · exact .inr (signals.spent wf gone)

theorem leaves (running : q.processor = some p) (left : s.Leaves q p q') : t.Attended q' := by
  obtain ⟨agent, doorbell, staffed⟩ := left.keeps
  have issued := attended.doorbell p running
  refine ⟨fun _ _ _ => staffed, fun p' _ => ?_, fun p' now state => ?_⟩
  · rw [doorbell]
    exact signals.issued wf issued
  · rw [doorbell]
    rcases left.reason now state with ended | gone
    · exact .inl ended
    · -- the doorbell was issued when the queue was made, so it was destroyed
      refine .inr (signals.spent wf (issued.resolve_left ?_))
      exact Bool.eq_false_iff.mp gone

end Attended

/-- A step attends to all queues if they were attended to before. -/
theorem Step.attended {turn : Turn} (step : Step turn s t) (reachable : s.Reachable)
    (before : ∀ h q, s.queues.get? h = some q → s.Attended q)
    (after : t.queues.get? h = some q') : t.Attended q' := by
  have wf := reachable.wellFormed
  have issued := reachable.signals
  have signals := step.signals wf
  have agents := (step.changes wf.queues).agents
  cases step with
  | application room ready =>
    rcases origin_perform room wf issued _ after with ⟨q, live, later⟩ | fresh
    · exact (before h q live).goesOn issued signals agents later
    · exact fresh.attended
  | processor live stepped =>
    rcases origin_step wf live stepped after with ⟨rfl, p, running, left⟩ | ⟨-, live⟩
    · exact (before h _ live).leaves issued signals running left
    · exact (before h q' live).goesOn issued signals agents ⟨rfl, rfl, rfl, id, rfl⟩

/-- Along a run all queues are attended to. -/
theorem Reachable.attended (reachable : s.Reachable) (live : s.queues.get? h = some q) :
    s.Attended q := by
  induction reachable generalizing h q with
  | @opened c s opened =>
    obtain rfl := openConfig_eq_ok opened
    cases live.symm.trans (Directory.get?_empty h)
  | rehost _ _ ih =>
    obtain ⟨staffed, doorbell, stopped⟩ := ih live
    exact ⟨staffed, doorbell, stopped⟩
  | step before step ih => exact step.attended before (fun _ _ => ih) live

/-! ### The read index -/

/-- The application leaves the head of a queue to its processor: it does not move the read index,
and it does not change the packet there once that is published. -/
def SparesHead (h : Handle) (s t : Session) : Prop :=
  ∀ q q', s.queues.get? h = some q → t.queues.get? h = some q' →
    q'.ring.readIndex = q.ring.readIndex ∧
      ((q.ring.header q.ring.readIndex).isUnpublished = false →
        q'.ring.read q.ring.readIndex = q.ring.read q.ring.readIndex)

/-- The sessions of runs in which the application leaves the head of a queue to its processor. -/
inductive Tended (h : Handle) : Session → Prop where
  | opened {c : Config} {s : Session} (opened : openConfig c = .ok s) : Tended h s
  | rehost {s : Session} (before : Tended h s) (host : Host) : Tended h (s.rehost host)
  | perform {s : Session} {o : Operation} (before : Tended h s)
      (step : Step (.application o) s (o.perform s)) (spares : SparesHead h s (o.perform s)) :
      Tended h (o.perform s)
  | process {s t : Session} {k : Handle} (before : Tended h s) (step : Step (.processor k) s t) :
      Tended h t

theorem Tended.reachable (tended : s.Tended h) : s.Reachable := by
  induction tended with
  | opened opened => exact .opened opened
  | rehost _ host before => exact before.rehost host
  | perform _ step _ before => exact .step before step
  | process _ step before => exact .step before step

/-- The processor of a queue works on the packet at the read index. -/
structure AtHead (q : Queue) : Prop where
  index : ∀ p, q.processor = some p → p.index = q.ring.readIndex
  held : ∀ p b, q.processor = some p → p.state = .held b →
    (q.ring.read q.ring.readIndex).pendingBarrier? = some b

/-- A processor that holds no barrier only has to have the right index. -/
theorem atHead_of_unheld (running : q.processor = some p) (index : p.index = q.ring.readIndex)
    (unheld : ∀ b, p.state ≠ .held b) : AtHead q where
  index r found := by
    obtain rfl := Option.some.inj (running.symm.trans found)
    exact index
  held r b found state := by
    obtain rfl := Option.some.inj (running.symm.trans found)
    exact absurd state (unheld b)

theorem Leaves.atHead (left : s.Leaves q p q') (head : AtHead q) (running : q.processor = some p) :
    AtHead q' := by
  have index := head.index p running
  cases left with
  | look | resume | stop | finish | crash | exhaust => exact atHead_of_unheld rfl index nofun
  | next => exact atHead_of_unheld rfl rfl nofun
  | fail =>
    refine atHead_of_unheld rfl ?_ nofun
    rw [Queue.setProcessor, inactivate_ring]
    exact index
  | @hold b state found =>
    constructor
    · rintro _ ⟨⟩
      exact index
    · rintro _ _ ⟨⟩ ⟨⟩
      exact index ▸ found

theorem Tended.atHead (tended : s.Tended h) (live : s.queues.get? h = some q) : AtHead q := by
  induction tended generalizing q with
  | @opened c s opened =>
    obtain rfl := openConfig_eq_ok opened
    cases live.symm.trans (Directory.get?_empty h)
  | rehost _ _ ih => exact ih live
  | perform before step spares ih =>
    have reachable := before.reachable
    cases step with
    | application room ready =>
      rcases origin_perform room reachable.wellFormed reachable.signals _ live with
        ⟨q₀, there, later⟩ | fresh
      · obtain ⟨index, held⟩ := ih there
        obtain ⟨same, kept⟩ := spares q₀ q there live
        refine ⟨fun p running => ?_, fun p b running state => ?_⟩
        · rw [same]
          exact index p (later.processor ▸ running)
        · have found := held p b (later.processor ▸ running) state
          rw [same, kept (Slot.isUnpublished_of_pendingBarrier? found)]
          exact found
      · cases running : q.processor with
        | none => exact ⟨by simp [running], by simp [running]⟩
        | some p =>
          obtain ⟨rfl, zero, -⟩ := fresh.started p running
          exact atHead_of_unheld running zero.symm nofun
  | process before step ih =>
    cases step with
    | processor there stepped =>
      rcases origin_step before.reachable.wellFormed there stepped live with
        ⟨rfl, p, running, left⟩ | ⟨-, there⟩
      · exact left.atHead (ih there) running
      · exact ih there

/-! ### Processors at rest -/

/-- A processor at rest has no step to take, or it finds nothing published once more; then it goes
back to looking for it. -/
theorem stepProcessor?_of_isAtRest (rests : s.isAtRest q = true) : s.stepProcessor? q = none ∨
    ∃ p, q.processor = some p ∧ (q.ring.header p.index).isUnpublished = true ∧
      q.isActive = true ∧ s.signals.isLive q.doorbell = true ∧
      s.stepProcessor? q = some (s.setProcessor q { p with state := .idle }) := by
  rw [isAtRest] at rests
  rw [stepProcessor?]
  cases running : q.processor with
  | none => exact .inl rfl
  | some p =>
    rw [running] at rests
    dsimp only at rests ⊢
    cases state : p.state with
    | stopped | crashed => exact .inl rfl
    | idle | finishing => simp [state] at rests
    | held b =>
      rw [state] at rests
      dsimp only at rests ⊢
      split at rests
      case h_1 waits =>
        rw [waits]
        exact .inl rfl
      case h_2 => cases rests
    | ready =>
      simp only [state, Bool.and_eq_true] at rests
      obtain ⟨⟨vacant, active⟩, doorbell⟩ := rests
      exact .inr ⟨p, rfl, vacant, active, doorbell, if_pos vacant⟩

/-- A processor at rest that has not left waits for its next packet to be published, or for the
signals of a barrier. -/
theorem waits_of_isAtRest (running : q.processor = some p) (rests : s.isAtRest q = true)
    (attends : p.state ≠ .stopped) (sound : p.state ≠ .crashed) :
    p.state = .ready ∧ (q.ring.header p.index).isUnpublished = true ∨
      ∃ b, p.state = .held b ∧ b.Unmet s := by
  rw [isAtRest, running] at rests
  dsimp only at rests
  cases state : p.state with
  | stopped => exact absurd state attends
  | crashed => exact absurd state sound
  | idle | finishing => simp [state] at rests
  | held b =>
    rw [state] at rests
    dsimp only at rests
    split at rests
    case h_1 waits => exact .inr ⟨b, rfl, (barrierOpens_eq_ok waits).mp rfl⟩
    case h_2 => cases rests
  | ready =>
    simp only [state, Bool.and_eq_true] at rests
    exact .inl ⟨rfl, rests.1.1⟩

/-- A processor stays with its queue until that has ended, or its doorbell is destroyed. While it
stays and is at rest, nothing is published at its index, or it holds a barrier whose
condition does not hold.

If the application leaves the head of the queue to the processor, nothing is published at the read
index, or the packet there is such a barrier. -/
theorem Reachable.head_waits {a : Agent} (reachable : s.Reachable) (live : s.queues.get? h = some q)
    (host : q.agent.bind s.agents.get? = some a)
    (kernels : a.info.features.contains .kernelDispatch = true) :
    ∃ p, q.processor = some p ∧
      (p.state = .stopped → q.isActive = false ∨ s.signals.isLive q.doorbell = false) ∧
      (q.isActive = true → s.signals.isLive q.doorbell = true → p.state ≠ .crashed →
        s.isAtRest q = true →
        ((q.ring.header p.index).isUnpublished = true ∨ ∃ b, p.state = .held b ∧ b.Unmet s) ∧
        (s.Tended h → (q.ring.header q.ring.readIndex).isUnpublished = true ∨
          ∃ b, (q.ring.read q.ring.readIndex).pendingBarrier? = some b ∧ b.Unmet s)) := by
  have attended := reachable.attended live
  obtain ⟨p, running⟩ := Option.ne_none_iff_exists'.mp (attended.staffed a host kernels)
  have reason : p.state = .stopped →
      q.isActive = false ∨ s.signals.isLive q.doorbell = false := fun state => by
    refine (attended.stopped p running state).imp_right fun gone => ?_
    have none : s.signals.get? q.doorbell = none := gone.get?_eq_none reachable.signals.live
    exact congrArg Option.isSome none
  refine ⟨p, running, reason, fun active doorbell sound rests => ?_⟩
  have attends : p.state ≠ .stopped := fun state => by
    rcases reason state with ended | gone
    · cases ended.symm.trans active
    · cases gone.symm.trans doorbell
  have waits := waits_of_isAtRest running rests attends sound
  refine ⟨waits.imp_left And.right, fun tended => ?_⟩
  obtain ⟨index, held⟩ := tended.atHead live
  rcases waits with ⟨-, vacant⟩ | ⟨b, state, unmet⟩
  · exact .inl (index p running ▸ vacant)
  · exact .inr ⟨b, held p b running state, unmet⟩

/-! ### A packet that nobody consumes -/

/-- What holds of a session, and what the steps of processors keep, holds once they have all run as
far as they can. -/
theorem settle_induction {P : Session → Prop} (wf : ∀ s, P s → s.WellFormed)
    (step : ∀ s t k, P s → Step (.processor k) s t → P t) (holds : P s) : P s.settle := by
  have within : ∀ fuel (s : Session), P s → P (settleWithin fuel s) := by
    intro fuel
    induction fuel with
    | zero => exact fun s holds => holds
    | succ fuel ih =>
      intro s holds
      rw [settleWithin]
      cases stepped : s.step? with
      | none => exact holds
      | some t =>
        obtain ⟨q, found, moved⟩ := Option.bind_eq_some_iff.mp stepped
        obtain ⟨k, live⟩ :=
          (wf s holds).queues.live.mem_values.mp (List.mem_of_find?_eq_some found)
        exact ih t (step s t k holds (.processor live moved))
  exact within _ s holds

theorem Tended.settle (tended : s.Tended h) : s.settle.Tended h :=
  settle_induction (fun _ before => before.reachable.wellFormed)
    (fun _ _ _ before step => before.process step) tended

/-- A queue at whose read index nothing is published is left to its processor as long as the read
index stays where it is. -/
theorem sparesHead_of_vacant
    (vacant : (s.queues.get? h).all (fun q => (q.ring.header q.ring.readIndex).isUnpublished &&
      (t.queues.get? h).all fun q' => q'.ring.readIndex == q.ring.readIndex) = true) :
    SparesHead h s t := by
  intro q q' live after
  rw [live, after] at vacant
  obtain ⟨unpublished, same⟩ := Bool.and_eq_true_iff.mp vacant
  exact ⟨beq_iff_eq.mp same, fun published => by rw [unpublished] at published; cases published⟩

/-- A queue of the graphics processor of the default configuration, to which a barrier was submitted
that depends on a signal, which reads 1. -/
def barred : Session :=
  let signalled := (Operation.createSignal 1 0 []).perform (.ofConfig .default)
  let queued := (Operation.createQueue (.ofParts 1 1) 64 .multi ⟨0, 0, true⟩).perform signalled
  (Operation.barrierAnd (.ofParts 0 1) [.ofParts 0 1] none).perform queued

/-- The processor waits for that signal. -/
theorem head_waits_for_signal : ∃ (q : Queue) (b : PendingBarrier),
    barred.settle.Tended (.ofParts 0 1) ∧
      barred.settle.queues.get? (.ofParts 0 1) = some q ∧ q.isActive = true ∧
      (q.ring.read q.ring.readIndex).pendingBarrier? = some b ∧ b.dependencies = [.ofParts 0 1] ∧
      b.Unmet barred.settle := by
  have opened : Tended (.ofParts 0 1) (.ofConfig .default) := .opened (c := .default) rfl
  have signalled := opened.perform (o := .createSignal 1 0 [])
    (.lasting ⟨by decide, by decide, by decide⟩ ⟨nofun, nofun⟩) (sparesHead_of_vacant rfl)
  have queued := signalled.perform (o := .createQueue (.ofParts 1 1) 64 .multi ⟨0, 0, true⟩)
    (.lasting ⟨by decide, by decide, by decide⟩ ⟨nofun, nofun⟩) (sparesHead_of_vacant rfl)
  have submitted := queued.perform (o := .barrierAnd (.ofParts 0 1) [.ofParts 0 1] none)
    (.lasting ⟨by decide, by decide, by decide⟩ ⟨nofun, nofun⟩) (sparesHead_of_vacant rfl)
  have settled : barred.settle.Tended (.ofParts 0 1) := submitted.settle
  obtain ⟨q, live, kernels, active, doorbell, sound, rests, published, dependencies⟩ : ∃ q,
      barred.settle.queues.get? (.ofParts 0 1) = some q ∧
      (∃ a, q.agent.bind barred.settle.agents.get? = some a ∧
        a.info.features.contains .kernelDispatch = true) ∧
      q.isActive = true ∧ barred.settle.signals.isLive q.doorbell = true ∧
      (∀ p, q.processor = some p → p.state ≠ .crashed) ∧
      barred.settle.isAtRest q = true ∧
      (q.ring.header q.ring.readIndex).isUnpublished = false ∧
      ∀ b, (q.ring.read q.ring.readIndex).pendingBarrier? = some b →
        b.dependencies = [.ofParts 0 1] := by
    refine ⟨_, rfl, ⟨_, rfl, rfl⟩, rfl, rfl, ?_, rfl, by decide, ?_⟩
    · rintro _ ⟨⟩ ⟨⟩
    · rintro _ ⟨⟩
      rfl
  obtain ⟨a, host, kernels⟩ := kernels
  obtain ⟨p, running, -, waits⟩ := settled.reachable.head_waits live host kernels
  rcases (waits active doorbell (sound p running) rests).2 settled with vacant | ⟨b, found, unmet⟩
  · cases published.symm.trans vacant
  · exact ⟨q, b, settled, live, active, found, dependencies b found, unmet⟩

/-- The doorbell of a queue of the graphics processor is destroyed; once its processor has noticed,
a kernel dispatch without work-items is published. -/
def unattended : Session :=
  let created := (Operation.createQueue (.ofParts 1 1) 64 .multi ⟨0, 0, true⟩).perform
    (.ofConfig .default)
  let left := ((Operation.destroySignal (.ofParts 0 1)).perform created).settle
  let reserved := (Operation.reserve (.ofParts 0 1) 1).perform left
  (Operation.publish (.ofParts 0 1) 0 (.ofType .kernelDispatch) 1).perform reserved

/-- A queue is active, and a packet is published at its read index, but its processor has left, and
the application was told nothing. -/
theorem strands_packet : ∃ (q : Queue) (a : Agent),
    unattended.settle.Tended (.ofParts 0 1) ∧ unattended.settle.step? = none ∧
      unattended.settle.queues.get? (.ofParts 0 1) = some q ∧
      q.agent.bind unattended.settle.agents.get? = some a ∧
      a.info.features.contains .kernelDispatch = true ∧
      q.isActive = true ∧ q.notifies = true ∧ unattended.settle.notices = [] ∧
      (q.ring.header q.ring.readIndex).type? = some .kernelDispatch ∧
      (q.ring.read q.ring.readIndex).pendingBarrier? = none ∧
      q.processor = some ⟨0, .stopped⟩ := by
  have opened : Tended (.ofParts 0 1) (.ofConfig .default) := .opened (c := .default) rfl
  have queued := opened.perform (o := .createQueue (.ofParts 1 1) 64 .multi ⟨0, 0, true⟩)
    (.lasting ⟨by decide, by decide, by decide⟩ ⟨nofun, nofun⟩) (sparesHead_of_vacant rfl)
  have muted := queued.perform (o := .destroySignal (.ofParts 0 1))
    (.lasting ⟨by decide, by decide, by decide⟩ ⟨nofun, nofun⟩) (sparesHead_of_vacant rfl)
  have reserved := muted.settle.perform (o := .reserve (.ofParts 0 1) 1)
    (.lasting ⟨by decide, by decide, by decide⟩ ⟨nofun, nofun⟩) (sparesHead_of_vacant rfl)
  have published := reserved.perform
    (o := .publish (.ofParts 0 1) 0 (.ofType .kernelDispatch) 1)
    (.lasting ⟨by decide, by decide, by decide⟩ ⟨nofun, nofun⟩) (sparesHead_of_vacant rfl)
  exact ⟨_, _, published.settle, rfl, rfl, rfl, rfl, rfl, rfl, rfl, rfl, rfl, rfl⟩

end Session

end Accelerator
