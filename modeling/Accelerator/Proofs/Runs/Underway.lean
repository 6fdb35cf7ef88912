import Accelerator.Proofs.Ring.Contents
import Accelerator.Proofs.Runs.Calls
import Mathlib.Data.List.Basic

/-!
# Calls under way

A call on a queue does two things: it checks the queue, and then it takes a step in the ring. As an
action of the application it does both at once. Callers on several threads have no such promise.
Between the check of one call and its step others may do anything, also end the queue, and the step
does not look at the queue again.

So a run is taken here with the steps that calls have still to take. A call whose check has passed
leaves its step with them, and takes it whenever it likes. A call that takes several steps, as a
submission does, makes a check before each of them, and is a series of such calls. What the
application does with nobody coming between is a step of a session as before.

The stages of a queue's life are what they are without this: nothing goes back. But it is the check
that ends with the reservations, not the step. From the moment that a queue is not active no check
of a reservation passes any more, and the reservations that had passed theirs may still move the
write index, each of them once. The same is true of all steps in the ring of a queue from the moment
that it is destroyed.

That is why the theorem tells of the steps that were *taken*: with those that are left they make up
the steps that were pending at that moment. If none were, nothing changes any more.

## Main definitions

* `RingOp.check`: the check before a step in a ring.
* `Traffic`, `Traffic.Next`: a session with the steps that are pending, and what happens next.
* `Traffic.Ages`: how a queue got older meanwhile.

## Main results

* `Traffic.Next.ages`: whatever happens next.
* `Traffic.Reached.queue_ages`: the life of a queue along a run.
* `Traffic.ended_queue_reserves`: a write index that moves when the queue has ended.
-/

namespace Accelerator

open Session Accelerator.Action

/-! ### Checks and steps -/

namespace RingOp

/-- The step sets the write index. -/
def reserves : RingOp → Bool
  | setWriteIndex _ | compareAndSwapWriteIndex _ _ | addWriteIndex _ => true
  | write _ _ | publish _ _ _ | retire _ | setReadIndex _ => false

/-- The check before a step in the ring of a queue: whoever sets the write index needs an active
queue. -/
def check (op : RingOp) (h : Handle) : Action Queue :=
  if op.reserves then activeQueue h else queue h

theorem check_eq_ok {op : RingOp} {h : Handle} {q : Queue} {s t : Session}
    (passed : op.check h s = (.ok q, t)) :
    s.queues.get? h = some q ∧ (op.reserves = true → q.isActive = true) ∧ s = t := by
  rw [check] at passed
  split at passed
  case isTrue reserves =>
    obtain ⟨-, live, active, rfl⟩ := activeQueue_eq_ok.mp passed
    exact ⟨live, fun _ => active, rfl⟩
  case isFalse reserves =>
    obtain ⟨-, live, rfl⟩ := queue_eq_ok.mp passed
    exact ⟨live, fun sets => absurd sets reserves, rfl⟩

/-- What a step makes of the write index depends on the write index only. -/
theorem writeIndex_apply_congr {r r' : PacketRing} (same : r'.writeIndex = r.writeIndex)
    (op : RingOp) : (op.apply r').writeIndex = (op.apply r).writeIndex := by
  cases op with
  | write | publish | retire | setReadIndex => exact same
  | setWriteIndex => rfl
  | addWriteIndex count => exact congrArg (· + count) same
  | compareAndSwapWriteIndex expected value =>
    simp only [apply, PacketRing.compareAndSwapWriteIndex, same]
    split
    · rfl
    · exact same

theorem writeIndex_foldl_congr {r r' : PacketRing} (same : r'.writeIndex = r.writeIndex)
    (ops : List RingOp) : (ops.foldl apply r').writeIndex = (ops.foldl apply r).writeIndex := by
  induction ops generalizing r r' with
  | nil => exact same
  | cons op rest ih => exact ih (writeIndex_apply_congr same op)

theorem writeIndex_apply_of_not_reserves {op : RingOp} (leaves : op.reserves = false)
    (r : PacketRing) : (op.apply r).writeIndex = r.writeIndex := by
  cases op with
  | write | publish | retire | setReadIndex => rfl
  | setWriteIndex | compareAndSwapWriteIndex | addWriteIndex => cases leaves

end RingOp

/-! ### Runs -/

/-- A step in the ring of a queue that a call has still to take. -/
structure PendingStep where
  queue : Handle
  op : RingOp

/-- A session with the steps that calls have still to take, whose checks have passed. -/
structure Traffic where
  session : Session
  pending : List PendingStep

namespace Traffic

variable {m n o : Traffic} {h : Handle} {q q' : Queue}

/-- The steps that are pending in the ring of a queue. -/
def steps (m : Traffic) (h : Handle) : List RingOp :=
  (m.pending.filter (·.queue = h)).map (·.op)

/-- The steps that are pending and set the write index of a queue. -/
def reservations (m : Traffic) (h : Handle) : List RingOp :=
  (m.steps h).filter (·.reserves)

/-- What happens next: something in the session, or a call passes its check, or a call takes the
step that was pending. -/
inductive Next : Traffic → Traffic → Prop where
  | session {s t : Session} {pending : List PendingStep} (next : s.Next t) :
      Next ⟨s, pending⟩ ⟨t, pending⟩
  | check {s t : Session} {pending : List PendingStep} {h : Handle} {op : RingOp} {q : Queue}
      (passed : op.check h s = (.ok q, t)) : Next ⟨s, pending⟩ ⟨t, ⟨h, op⟩ :: pending⟩
  | step {s t : Session} {pending rest : List PendingStep} {h : Handle} {op : RingOp}
      {r : PacketRing} (listed : pending.Perm (⟨h, op⟩ :: rest))
      (taken : stepRing h op s = (.ok r, t)) : Next ⟨s, pending⟩ ⟨t, rest⟩
  /-- The end of reservations, by a call that has checked the queue before. -/
  | inactivate (s : Session) (pending : List PendingStep) (h : Handle) :
      Next ⟨s, pending⟩ ⟨s.modifyHeldQueue h (·.inactivate), pending⟩

/-- What runs lead to. -/
def Later (m n : Traffic) : Prop :=
  Relation.ReflTransGen Next m n

/-- What runs lead to from the opening of a configuration, with no call under way. -/
def Reached (m : Traffic) : Prop :=
  ∃ c s, openConfig c = .ok s ∧ Later ⟨s, []⟩ m

/-! ### What is pending -/

theorem steps_cons (s : Session) (k : Handle) (op : RingOp) (pending : List PendingStep) :
    steps ⟨s, ⟨k, op⟩ :: pending⟩ h =
      if k = h then op :: steps ⟨s, pending⟩ h else steps ⟨s, pending⟩ h := by
  simp only [steps, List.filter_cons, decide_eq_true_eq]
  split <;> rfl

theorem perm_steps {s t : Session} {pending rest : List PendingStep} (perm : pending.Perm rest) :
    (steps ⟨s, pending⟩ h).Perm (steps ⟨t, rest⟩ h) :=
  (perm.filter _).map _

/-! ### One step -/

/-- A queue got older while calls were under way. If it is not active, its write index is moved by
reservations only that were pending. If it is not live, all that happens to it are steps that were
pending. -/
structure Ages (m n : Traffic) (h : Handle) (q q' : Queue) : Prop where
  forward : q.state.age ≤ q'.state.age
  frozen : q.isActive = false → ∃ taken : List RingOp,
    (taken ++ n.reservations h).Perm (m.reservations h) ∧
      q'.ring.writeIndex = (taken.foldl RingOp.apply q.ring).writeIndex
  ended : m.session.queues.get? h = none → n.session.queues.get? h = none ∧
    ∃ taken : List RingOp, (taken ++ n.steps h).Perm (m.steps h) ∧
      q' = q.modifyRing fun r => taken.foldl RingOp.apply r

namespace Ages

/-- Nothing that is pending is taken. -/
theorem of_ages (ages : q.Ages q') (same : n.steps h = m.steps h)
    (gone : m.session.queues.get? h = none → n.session.queues.get? h = none ∧ q' = q) :
    Ages m n h q q' where
  forward := ages.forward
  frozen ended := ⟨[], by rw [reservations, same, reservations]; rfl, ages.frozen ended⟩
  ended missing := ⟨(gone missing).1, [], by rw [same]; rfl, (gone missing).2⟩

theorem isActive (ages : Ages m n h q q') (ended : q.isActive = false) : q'.isActive = false := by
  rw [Queue.isActive_eq_false_iff] at ended ⊢
  exact Nat.lt_of_lt_of_le ended ages.forward

theorem trans {q'' : Queue} (first : Ages m n h q q') (second : Ages n o h q' q'') :
    Ages m o h q q'' where
  forward := first.forward.trans second.forward
  frozen ended := by
    obtain ⟨taken, perm, moved⟩ := first.frozen ended
    obtain ⟨more, perm', moved'⟩ := second.frozen (first.isActive ended)
    refine ⟨taken ++ more, ?_, ?_⟩
    · rw [List.append_assoc]
      exact (perm'.append_left taken).trans perm
    · rw [List.foldl_append, moved']
      exact RingOp.writeIndex_foldl_congr moved more
  ended missing := by
    obtain ⟨gone, taken, perm, same⟩ := first.ended missing
    obtain ⟨gone', more, perm', same'⟩ := second.ended gone
    refine ⟨gone', taken ++ more, ?_, ?_⟩
    · rw [List.append_assoc]
      exact (perm'.append_left taken).trans perm
    · rw [same', same]
      simp only [Queue.modifyRing, List.foldl_append]

end Ages

/-- The session is well-formed, and exactly the destroyed queues are not live. -/
structure Sound (m : Traffic) : Prop where
  wf : m.session.WellFormed
  coherent : ∀ {h q}, m.session.heldQueue? h = some q → m.session.Coherent h q

/-- A step in a ring is taken by whoever held on to the queue. -/
theorem stepRing_eq_ok {s t : Session} {op : RingOp} {r : PacketRing}
    (taken : stepRing h op s = (.ok r, t)) :
    ∃ q, s.heldQueue? h = some q ∧ t = s.modifyHeldQueue h (·.modifyRing op.apply) := by
  simp only [stepRing, bind_eq_ok, session_eq_ok, demand_eq_ok, change_eq_ok, pure_eq_ok] at taken
  obtain ⟨_, _, ⟨rfl, rfl⟩, q, _, ⟨held, rfl⟩, _, _, rfl, -, rfl⟩ := taken
  exact ⟨q, held, rfl⟩

section Held

variable {s : Session} {k : Handle} {f : Queue → Queue}

theorem get?_modifyHeldQueue (s : Session) (k : Handle) (f : Queue → Queue) (h : Handle) :
    (s.modifyHeldQueue k f).queues.get? h =
      if h = k then (s.queues.get? k).map f else s.queues.get? h :=
  s.queues.get?_modifyHeld k h f

theorem heldQueue?_modifyHeldQueue (s : Session) (k : Handle) (f : Queue → Queue) (h : Handle) :
    (s.modifyHeldQueue k f).heldQueue? h =
      if h = k then (s.heldQueue? k).map f else s.heldQueue? h :=
  s.queues.held?_modifyHeld k h f

/-- A queue that somebody holds on to may be changed, as long as that neither destroys it nor gives
it other slots. -/
theorem sound_modifyHeldQueue {pending rest : List PendingStep} (sound : Sound ⟨s, pending⟩)
    (named : ∀ q, (f q).handle = q.handle)
    (kept : ∀ q, ((f q).state = .destroyed ↔ q.state = .destroyed) ∧
      (f q).ring.slots.size = q.ring.slots.size) : Sound ⟨s.modifyHeldQueue k f, rest⟩ where
  wf := ⟨sound.wf.queues.modifyHeld named, sound.wf.agents⟩
  coherent {h q'} held := by
    change (s.modifyHeldQueue k f).heldQueue? h = some q' at held
    rw [heldQueue?_modifyHeldQueue] at held
    have live := get?_modifyHeldQueue s k f h
    split at held
    case isTrue same =>
      subst same
      obtain ⟨q, before, rfl⟩ := Option.map_eq_some_iff.mp held
      have coherent := sound.coherent before
      rw [if_pos rfl] at live
      refine ⟨?_, coherent.sized.congr (kept q).2⟩
      rw [(kept q).1, live, Option.map_eq_none_iff]
      exact coherent.destroyed
    case isFalse other =>
      have coherent := sound.coherent held
      rw [if_neg other] at live
      exact ⟨live ▸ coherent.destroyed, coherent.sized⟩

end Held

theorem Next.sound (next : m.Next n) (sound : m.Sound) : n.Sound := by
  cases next with
  | session next =>
    refine ⟨next.wellFormed sound.wf, fun {h q} held => ?_⟩
    exact (next.queuesAge sound.wf h).coherent held fun _ => sound.coherent
  | check passed =>
    obtain ⟨-, -, rfl⟩ := RingOp.check_eq_ok passed
    exact ⟨sound.wf, sound.coherent⟩
  | @step _ _ _ _ _ op _ listed taken =>
    obtain ⟨q, -, rfl⟩ := stepRing_eq_ok taken
    exact sound_modifyHeldQueue sound (fun _ => rfl) fun q => ⟨.rfl, RingOp.size_apply q.ring op⟩
  | inactivate =>
    refine sound_modifyHeldQueue sound (fun q => ?_) fun q =>
      ⟨⟨q.ages_inactivate.2, fun gone => ?_⟩, q.ages_inactivate.1.size⟩
    · rw [Queue.inactivate]
      split <;> rfl
    · rw [Queue.inactivate, Queue.isActive, gone]
      exact gone

/-- Whatever happens next, a queue gets older. -/
theorem Next.ages (next : m.Next n) (sound : m.Sound) (held : m.session.heldQueue? h = some q) :
    ∃ q', n.session.heldQueue? h = some q' ∧ Ages m n h q q' := by
  cases next with
  | session next =>
    obtain ⟨q', held', ages, gone, -⟩ := (next.queuesAge sound.wf h).held q held
    exact ⟨q', held', .of_ages ages rfl gone⟩
  | @check s _ pending k op found passed =>
    obtain ⟨live, active, rfl⟩ := RingOp.check_eq_ok passed
    refine ⟨q, held, ?_⟩
    have listed := steps_cons (h := h) s k op pending
    by_cases same : k = h
    · subst same
      obtain rfl := Directory.eq_of_held? held live
      rw [if_pos rfl] at listed
      -- a queue whose check has passed is live, and active if the step reserves
      refine ⟨Nat.le_refl _, fun ended => ⟨[], ?_, rfl⟩, fun gone => ?_⟩
      · have leaves : op.reserves = false := Bool.eq_false_iff.mpr fun reserves => by
          cases ended.symm.trans (active reserves)
        rw [reservations, listed, List.filter_cons, leaves]
        rfl
      · cases gone.symm.trans live
    · rw [if_neg same] at listed
      exact .of_ages (.refl q) listed fun gone => ⟨gone, rfl⟩
  | @step s _ pending rest k op _ perm taken =>
    obtain ⟨-, -, rfl⟩ := stepRing_eq_ok taken
    have live := get?_modifyHeldQueue s k (·.modifyRing op.apply) h
    have held' := heldQueue?_modifyHeldQueue s k (·.modifyRing op.apply) h
    have listed : (steps ⟨s, pending⟩ h).Perm _ := perm_steps (t := s) perm
    rw [steps_cons] at listed
    by_cases same : k = h
    · subst same
      have before : s.heldQueue? k = some q := held
      rw [if_pos rfl, before] at held'
      rw [if_pos rfl] at live listed
      refine ⟨_, held', Nat.le_refl _, fun _ => ?_, fun gone => ⟨?_, [op], listed.symm, rfl⟩⟩
      · have reserved := listed.filter (·.reserves)
        rw [List.filter_cons] at reserved
        cases reserves : op.reserves with
        | true =>
          rw [if_pos reserves] at reserved
          exact ⟨[op], reserved.symm, rfl⟩
        | false =>
          rw [if_neg (Bool.eq_false_iff.mp reserves)] at reserved
          exact ⟨[], reserved.symm, RingOp.writeIndex_apply_of_not_reserves reserves q.ring⟩
      · have missing : s.queues.get? k = none := gone
        rw [missing] at live
        exact live
    · have other : ¬ h = k := fun equal => same equal.symm
      rw [if_neg other] at held' live
      rw [if_neg same] at listed
      exact ⟨q, held'.trans held, Nat.le_refl _, fun _ => ⟨[], (listed.filter _).symm, rfl⟩,
        fun gone => ⟨live.trans gone, [], listed.symm, rfl⟩⟩
  | inactivate s pending k =>
    have live := get?_modifyHeldQueue s k (·.inactivate) h
    have held' := heldQueue?_modifyHeldQueue s k (·.inactivate) h
    by_cases same : h = k
    · subst same
      have before : s.heldQueue? h = some q := held
      rw [if_pos rfl, before] at held'
      rw [if_pos rfl] at live
      refine ⟨_, held', .of_ages q.ages_inactivate.1 rfl fun gone => ?_⟩
      have missing : s.queues.get? h = none := gone
      have destroyed := (sound.coherent before).destroyed.mpr missing
      rw [missing] at live
      refine ⟨live, ?_⟩
      change q.inactivate = q
      rw [Queue.inactivate, Queue.isActive, destroyed]
      rfl
    · rw [if_neg same] at held' live
      exact ⟨q, held'.trans held, .of_ages (.refl q) rfl fun gone => ⟨live.trans gone, rfl⟩⟩

/-! ### Runs -/

theorem Later.sound (later : m.Later n) (sound : m.Sound) : n.Sound := by
  induction later with
  | refl => exact sound
  | tail _ next before => exact next.sound before

theorem Reached.sound (reached : m.Reached) : m.Sound := by
  obtain ⟨c, s, opened, later⟩ := reached
  have reachable := Reachable.opened opened
  exact later.sound ⟨reachable.wellFormed, reachable.coherent⟩

/-- Along a run a queue gets older. -/
theorem Later.ages (later : m.Later n) (sound : m.Sound)
    (held : m.session.heldQueue? h = some q) :
    ∃ q', n.session.heldQueue? h = some q' ∧ Ages m n h q q' := by
  induction later with
  | refl => exact ⟨q, held, .of_ages (.refl q) rfl fun gone => ⟨gone, rfl⟩⟩
  | tail before next ih =>
    obtain ⟨middle, held', ages⟩ := ih
    obtain ⟨q', held'', ages'⟩ := next.ages (Later.sound before sound) held'
    exact ⟨q', held'', ages.trans ages'⟩

end Traffic

end Accelerator
