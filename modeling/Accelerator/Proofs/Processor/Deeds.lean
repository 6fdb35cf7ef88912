import Accelerator.Proofs.Accounts.Balance
import Accelerator.Proofs.Processor.Attendance
import Mathlib.Data.Option.Basic

/-!
# What processors do, turn by turn

Of a queue, its command processor looks at the slots, the agent, the doorbell and, where nothing is
published, the stage; of other queues it looks at nothing. What an application does with signals
has nothing to do with queues at all. So most of what happens in a turn stays the same when the
queues of a session are exchanged.

A run is told by its turns, each with what was done with packets in it. A processor that has
nothing to do lets its turn pass, so the same turns can be taken from different sessions.

## A function beside the relation

`Session.Move` says what a step may be, and is what invariants are proved from. To compare two runs
one needs to compute what each of them does: hence `Session.deeds`, which is shown to be one of the
moves.

## Main definitions

* `Turn.LeavesQueues`: turns of processors, and of an application that has to do with signals.
* `Action.Blind`: an action that neither looks at the queues nor changes them.
* `Session.Alike`: queues with the same packets, that are worked on by the same agent.
* `Session.deeds`: what the next step of a processor does with packets.
* `Session.takeTurn`, `Session.play`: turns, with what was done with packets in them.

## Main results

* `Session.perform_queues`, `Session.examine_queues`, `Session.deeds_queues`: what stays the same
  when the queues are exchanged.
* `Session.move_deeds`: the deeds of a step are those of the move that it is.
* `Session.takeTurn_processor`: a turn of a processor passes, or it is a step.
-/

namespace Accelerator

/-- Somebody else's turn than that of an application that has to do with queues: a processor's, or
one in which signals are made, changed or destroyed, or time passes. -/
def Turn.LeavesQueues : Turn → Prop
  | processor _ => True
  | application o =>
    match o with
    | .createSignal _ _ _ | .destroySignal _ | .storeSignal _ _ _ | .updateSignal _ _ _
    | .advanceTo _ => True
    | _ => False

/-! ### Actions that never look at queues -/

namespace Action

variable {α β : Type} {x : Action α} {f : α → Action β}

/-- The action neither looks at the queues nor changes them. -/
def Blind (x : Action α) : Prop :=
  ∀ (s : Session) (d : Directory Queue),
    x { s with queues := d } = ((x s).1, { (x s).2 with queues := d })

theorem blind_pure (a : α) : Blind (pure a : Action α) := fun _ _ => rfl

theorem blind_require (p : Bool) (e : Fault) : Blind (require p e) := fun _ _ => by
  cases p <;> rfl

theorem blind_demand (o : Option α) (e : Fault) : Blind (demand o e) := fun _ _ => by
  cases o <;> rfl

theorem blind_liftM (o : Except Fault α) : Blind (liftM o : Action α) := fun _ _ => rfl

theorem blind_change {g : Session → Session}
    (same : ∀ (s : Session) d, g { s with queues := d } = { g s with queues := d }) :
    Blind (change g) := fun s d => by
  rw [change_apply, change_apply, same]

theorem Blind.bind (first : Blind x) (rest : ∀ a, Blind (f a)) : Blind (x >>= f) := fun s d => by
  rw [bind_apply, bind_apply, first s d]
  rcases x s with ⟨e | a, t⟩
  · rfl
  · exact rest a t d

/-- What is done may depend on all of the session but the queues. -/
theorem blind_session {g : Session → Action β}
    (same : ∀ (s : Session) d, g { s with queues := d } = g s) (blind : ∀ s, Blind (g s)) :
    Blind (session >>= g) := fun s d => by
  change g { s with queues := d } { s with queues := d } = _
  rw [same]
  exact blind s s d

theorem blind_forM {action : α → Action PUnit} (blind : ∀ a, Blind (action a)) (as : List α) :
    Blind (as.forM action) := by
  induction as with
  | nil => exact blind_pure _
  | cons a rest ih => exact (blind a).bind fun _ => ih

end Action

namespace Session

open Accelerator.Action

variable {s t m n : Session} {h k : Handle} {q q' : Queue} {p : Processor}

theorem blind_ensureOpen : Blind ensureOpen :=
  blind_session (fun _ _ => rfl) fun _ => blind_require _ _

theorem blind_signal (h : Handle) : Blind (signal h) :=
  blind_ensureOpen.bind fun _ => blind_session (fun _ _ => rfl) fun _ => blind_demand _ _

theorem blind_agent (h : Handle) : Blind (agent h) :=
  blind_ensureOpen.bind fun _ => blind_session (fun _ _ => rfl) fun _ => blind_demand _ _

theorem blind_createSignal (initial : Int64) (count : UInt32) (consumers : List Handle) :
    Blind (createSignal initial count consumers) :=
  blind_ensureOpen.bind fun _ => (blind_require _ _).bind fun _ =>
    (blind_forM (fun h => (blind_agent h).bind fun _ => blind_pure _) _).bind fun _ =>
    blind_session (fun _ _ => rfl) fun _ =>
    (blind_change fun _ _ => rfl).bind fun _ => blind_pure _

theorem blind_destroySignal (h : Handle) : Blind (destroySignal h) :=
  blind_ensureOpen.bind fun _ => blind_session (fun _ _ => rfl) fun _ =>
    (blind_demand _ _).bind fun _ => blind_change fun _ _ => rfl

theorem blind_storeSignal (h : Handle) (value : Int64) (order : MemoryOrder) :
    Blind (storeSignal h value order) :=
  (blind_signal h).bind fun _ => (blind_liftM _).bind fun _ => blind_change fun _ _ => rfl

theorem blind_updateSignal (h : Handle) (update : Signal.Update) (order : MemoryOrder) :
    Blind (updateSignal h update order) :=
  (blind_signal h).bind fun _ => (blind_change fun _ _ => rfl).bind fun _ => blind_pure _

/-- What is done with signals does not depend on queues, and does not change them. -/
theorem perform_queues {o : Operation} (leaves : (Turn.application o).LeavesQueues) (s : Session)
    (d : Directory Queue) :
    o.perform { s with queues := d } = { o.perform s with queues := d } := by
  cases o with
  | createSignal initial count consumers =>
    exact congrArg Prod.snd (blind_createSignal initial count consumers s d)
  | destroySignal h => exact congrArg Prod.snd (blind_destroySignal h s d)
  | storeSignal h value order => exact congrArg Prod.snd (blind_storeSignal h value order s d)
  | updateSignal h update order => exact congrArg Prod.snd (blind_updateSignal h update order s d)
  | advanceTo => rfl
  | _ => exact leaves.elim

/-- What is done with signals leaves the queues alone. -/
theorem queues_perform {o : Operation} (leaves : (Turn.application o).LeavesQueues) (s : Session) :
    (o.perform s).queues = s.queues := by
  have same : o.perform s = _ := perform_queues leaves s s.queues
  rw [same]

/-! ### What processors look at -/

theorem signalValues_queues (s : Session) (d : Directory Queue) (hs : List Handle) :
    ({ s with queues := d } : Session).signalValues hs = s.signalValues hs := by
  induction hs with
  | nil => rfl
  | cons h rest ih => rw [signalValues, signalValues, ih]

theorem barrierOpens_queues (s : Session) (d : Directory Queue) (b : PendingBarrier) :
    ({ s with queues := d } : Session).barrierOpens b = s.barrierOpens b := by
  rw [barrierOpens, barrierOpens, signalValues_queues]

/-- Two queues with the same packets, that are worked on by the same agent. -/
structure Alike (q q' : Queue) : Prop where
  handle : q'.handle = q.handle
  ring : q'.ring = q.ring
  agent : q'.agent = q.agent
  notifies : q'.notifies = q.notifies
  doorbell : q'.doorbell = q.doorbell

theorem Alike.refl (q : Queue) : Alike q q :=
  ⟨rfl, rfl, rfl, rfl, rfl⟩

theorem examineDispatch_queues (s : Session) (d : Directory Queue) (agent : q'.agent = q.agent)
    (index : UInt64) (packet : KernelDispatch) (setup : UInt16) :
    ({ s with queues := d } : Session).examineDispatch q' index packet setup =
      ((s.examineDispatch q index packet setup).1,
        { (s.examineDispatch q index packet setup).2 with queues := d }) := by
  have signal : ({ s with queues := d } : Session).packetSignal packet.completionSignal
      = s.packetSignal packet.completionSignal := rfl
  simp only [examineDispatch, agent]
  rw [signal]
  cases s.packetSignal packet.completionSignal with
  | error cause => rfl
  | ok completion =>
    dsimp only
    cases (q.agent.bind s.agents.get?).map fun a =>
        packet.plan setup a.info s.kernels s.memory with
    | none => rfl
    | some plan =>
      cases plan with
      | empty | refused | overflow => rfl
      | launch l =>
        simp only [runLaunch]
        cases (l.run s.memory s.reports).panicked <;> rfl

/-- The packet of an index comes to the same, whatever the queues are. -/
theorem examine_queues (s : Session) (d : Directory Queue) (alike : Alike q q') (index : UInt64)
    (word : UInt32) : ({ s with queues := d } : Session).examine q' index word =
      ((s.examine q index word).1, { (s.examine q index word).2 with queues := d }) := by
  rw [examine, examine, alike.ring]
  dsimp only
  cases (Header.ofWord word).type? with
  | none => rfl
  | some type =>
    dsimp only
    cases (Layout.ofType? type).map (q.ring.read index).body with
    | none => rfl
    | some body =>
      cases body with
      | kernel packet => exact s.examineDispatch_queues d alike.agent index packet _
      | barrierAnd | barrierOr | agent => rfl

/-! ### What processors do -/

/-- The launch that a processor runs when it examines a packet. -/
def launch? (s : Session) (q : Queue) (index : UInt64) (word : UInt32) : Option Launch :=
  match (Header.ofWord word).type?, s.packetSignal (q.ring.read index).completionSignal,
    q.agent.bind s.agents.get? with
  | some .kernelDispatch, .ok _, some a =>
    match s.planOf q index word a with
    | .launch l => some l
    | _ => none
  | _, _, _ => none

theorem launch?_eq_some {index : UInt64} {word : UInt32} {l : Launch} :
    s.launch? q index word = some l ↔ s.Launches q index word l := by
  rw [launch?]
  constructor
  · intro found
    split at found
    case h_1 type signal host =>
      split at found
      case h_1 planned =>
        cases found
        exact ⟨type, ⟨_, signal⟩, _, host, planned⟩
      case h_2 => cases found
    case h_2 => cases found
  · rintro ⟨type, ⟨completion, signal⟩, a, host, planned⟩
    have planned : s.planOf q index word a = .launch l := planned
    rw [type, signal, host]
    dsimp only
    rw [planned]

theorem launch?_eq_none {index : UInt64} {word : UInt32}
    (idle : ∀ l, ¬ s.Launches q index word l) : s.launch? q index word = none :=
  Option.eq_none_iff_forall_ne_some.mpr fun l found => idle l (launch?_eq_some.mp found)

/-- A packet without work-items is not run. -/
theorem not_launches_of_empty {index : UInt64} {word : UInt32}
    (empty : q.agent.bind s.agents.get? = none ∨ (q.ring.read index).dispatch.isEmpty = true)
    (l : Launch) : ¬ s.Launches q index word l := by
  rintro ⟨-, -, a, host, planned⟩
  rcases empty with none | nothing
  · cases none.symm.trans host
  · rw [KernelDispatch.plan, if_pos nothing] at planned
    cases planned

/-- What the next step of a processor does with packets. -/
def deeds (s : Session) (q : Queue) (p : Processor) : List Deed :=
  match p.state with
  | .idle | .stopped | .crashed => []
  | .held b =>
    match s.barrierOpens b with
    | .error cause => [.failed p.index cause]
    | .ok _ => []
  | .finishing none => [.completed p.index none]
  | .finishing (some h) =>
    if s.signals.isLive h then [.completed p.index (some h)]
    else [.failed p.index (.invalidSignal h)]
  | .ready =>
    if (q.ring.header p.index).isUnpublished then []
    else (s.launch? q p.index (q.ring.word p.index)).toList.map (.ran p.index) ++
      match (s.examine q p.index (q.ring.word p.index)).1 with
      | .failed cause => [.failed p.index cause]
      | _ => []

section Moves

variable (running : q.processor = some p) (stepped : s.stepProcessor? q = some t)
include running stepped

theorem move_deeds_held {b : PendingBarrier} (state : p.state = .held b) :
    s.Move q p (s.deeds q p) t := by
  simp only [stepProcessor?, running, state] at stepped
  rw [deeds, state]
  dsimp only
  cases opens : s.barrierOpens b with
  | error cause =>
    rw [opens] at stepped
    cases stepped
    exact .give state opens
  | ok answer =>
    rw [opens] at stepped
    cases answer <;> cases stepped
    exact .pass state opens

theorem move_deeds_finishing {completion : Option Handle}
    (state : p.state = .finishing completion) : s.Move q p (s.deeds q p) t := by
  rw [deeds, state]
  cases completion with
  | none =>
    have usable : ∀ k, none = some k → s.signals.isLive k = true := by
      intro k absent
      cases absent
    rw [stepProcessor?_finishing running state usable] at stepped
    cases stepped
    exact .complete state usable
  | some h =>
    cases live : s.signals.isLive h with
    | true =>
      have usable : ∀ k, some h = some k → s.signals.isLive k = true := by
        rintro _ ⟨⟩
        exact live
      rw [stepProcessor?_finishing running state usable] at stepped
      cases stepped
      dsimp only
      rw [if_pos live]
      exact .complete state usable
    | false =>
      have stale : ¬ s.signals.isLive h = true := Bool.eq_false_iff.mp live
      simp only [stepProcessor?, running, state, finishPacket, if_neg stale] at stepped
      cases stepped
      dsimp only
      rw [if_neg stale]
      exact .miss state live

/-- Where nothing is published, the only step is to note that. -/
theorem move_deeds_vacant (state : p.state = .ready)
    (published : (q.ring.header p.index).isUnpublished = true) : s.Move q p (s.deeds q p) t := by
  have vacant : (Header.ofWord (q.ring.word p.index)).isUnpublished = true := published
  rw [deeds, state]
  dsimp only
  rw [if_pos published]
  simp only [stepProcessor?, running, state, vacant, if_true] at stepped
  cases stepped
  exact .look state published

/-- A processor that has found nothing published looks again, or leaves its queue. -/
theorem move_deeds_idle (state : p.state = .idle) : s.Move q p (s.deeds q p) t := by
  simp only [stepProcessor?, running, state] at stepped
  rw [deeds, state]
  split at stepped
  case isTrue stays =>
    cases stepped
    exact .resume state stays
  case isFalse gone =>
    cases stepped
    exact .leave state (Bool.eq_false_iff.mpr gone)

/-- A packet that is published is examined; the move is told by what it comes to. -/
theorem move_deeds_published (state : p.state = .ready)
    (published : (q.ring.header p.index).isUnpublished = false) : s.Move q p (s.deeds q p) t := by
  rw [stepProcessor?_ready running state published] at stepped
  have outcome := s.outcome_examine q p.index (q.ring.word p.index)
  rw [deeds, state]
  dsimp only
  rw [published, if_neg Bool.false_ne_true]
  generalize examined : s.examine q p.index (q.ring.word p.index) = result at stepped outcome
  obtain ⟨came, after⟩ := result
  cases outcome with
  | failed cause idle =>
    cases stepped
    rw [launch?_eq_none idle]
    exact .refuse state published examined idle
  | crashed idle =>
    cases stepped
    rw [launch?_eq_none idle]
    exact .crash state published idle
  | nothing type signal empty =>
    cases stepped
    rw [launch?_eq_none (not_launches_of_empty empty)]
    exact .skip state published type signal empty
  | ran signal launches returned =>
    cases stepped
    rw [launch?_eq_some.mpr launches]
    exact .run state published signal launches returned
  | panicked launches ended =>
    cases stepped
    rw [launch?_eq_some.mpr launches]
    exact .panic state published launches ended
  | held type signal =>
    cases stepped
    rw [launch?_eq_none fun l launches => type launches.type]
    exact .hold state published type signal

/-- A step of a processor is a move with these deeds. -/
theorem move_deeds : s.Move q p (s.deeds q p) t := by
  cases state : p.state with
  | stopped | crashed => simp [stepProcessor?, running, state] at stepped
  | idle => exact move_deeds_idle running stepped state
  | held b => exact move_deeds_held running stepped state
  | finishing completion => exact move_deeds_finishing running stepped state
  | ready =>
    cases published : (q.ring.header p.index).isUnpublished with
    | true => exact move_deeds_vacant running stepped state published
    | false => exact move_deeds_published running stepped state published

end Moves

theorem launch?_queues (s : Session) (d : Directory Queue) (alike : Alike q q') (index : UInt64)
    (word : UInt32) :
    ({ s with queues := d } : Session).launch? q' index word = s.launch? q index word := by
  simp only [launch?, planOf, alike.ring, alike.agent]
  rfl

theorem deeds_queues (s : Session) (d : Directory Queue) (alike : Alike q q') (p : Processor) :
    ({ s with queues := d } : Session).deeds q' p = s.deeds q p := by
  simp only [deeds, barrierOpens_queues, launch?_queues s d alike, examine_queues s d alike,
    alike.ring]

/-! ### Turns -/

/-- A turn, with what was done with packets, and of which queue. A processor that has nothing to do
lets its turn pass. -/
def takeTurn (s : Session) : Turn → List (Handle × Deed) × Session
  | .application o => ([], o.perform s)
  | .processor k =>
    match s.queues.get? k with
    | none => ([], s)
    | some q =>
      match q.processor, s.stepProcessor? q with
      | some p, some t => ((s.deeds q p).map (k, ·), t)
      | _, _ => ([], s)

/-- Turns in order, with what was done with packets in all of them. -/
def play (s : Session) : List Turn → List (Handle × Deed) × Session
  | [] => ([], s)
  | turn :: rest =>
    let (now, t) := s.takeTurn turn
    let (later, u) := t.play rest
    (now ++ later, u)

theorem play_cons (s : Session) (turn : Turn) (rest : List Turn) : s.play (turn :: rest) =
    ((s.takeTurn turn).1 ++ ((s.takeTurn turn).2.play rest).1,
      ((s.takeTurn turn).2.play rest).2) := rfl

theorem play_append (s : Session) (xs ys : List Turn) : s.play (xs ++ ys) =
    ((s.play xs).1 ++ ((s.play xs).2.play ys).1, ((s.play xs).2.play ys).2) := by
  induction xs generalizing s with
  | nil => rfl
  | cons turn rest ih =>
    rw [List.cons_append, play_cons, play_cons, ih, List.append_assoc]

/-- The turn of a processor: it passes, or it is a step with these deeds. -/
theorem takeTurn_processor (s : Session) (k : Handle) :
    s.takeTurn (.processor k) = ([], s) ∨ ∃ q p t, s.queues.get? k = some q ∧
      q.processor = some p ∧ s.stepProcessor? q = some t ∧ s.Move q p (s.deeds q p) t ∧
      s.takeTurn (.processor k) = ((s.deeds q p).map (k, ·), t) := by
  rw [takeTurn]
  cases live : s.queues.get? k with
  | none => exact .inl rfl
  | some q =>
    dsimp only
    cases running : q.processor with
    | none => exact .inl rfl
    | some p =>
      cases stepped : s.stepProcessor? q with
      | none => exact .inl rfl
      | some t => exact .inr ⟨q, p, t, rfl, running, stepped, move_deeds running stepped, rfl⟩

end Session

end Accelerator
