import Accelerator.Proofs.Ring.Consumption
import Accelerator.Proofs.Runs.Calls

/-!
# Processing a queue

Processing hands one packet after another to a handler, until the handler ends it or the completion
of a packet fails. While the next packet has not been published it waits, and gives up if the queue
accepts no more reservations or if its doorbell is gone.

## Between the steps

The loop is taken apart into the steps that others may come between: seeing which packet is next,
looking at its slot and handling it, and seeing to the queue when there was nothing. A run of the
loop is any sequence of these steps, with any steps of others between them that leave the read index
to the consumer.

What the consumer knows when it sees to the queue is old. It has found the next packet unpublished
in some earlier session, and somebody may have published it since. If the queue has become inactive
as well, the loop ends with a packet left that is published. `FoundNothing` says how much is known
then, and the ways to end are told by it and not by the slot as it is at the end.

## Fuel

A call that nobody comes in the way of goes on until it finds nothing published, or ends. It never
runs out of fuel, because each packet that is handled leaves one less that is published.

## Main definitions

* `PacketRing.published`: how many slots hold a published packet.
* `Session.ProcessRun`: the steps of a loop and those of others.
* `Session.ProcessReaches`: the packets handled in a loop, and where the consumer has got to.

## Main results

* `Session.stepProcess_spec`, `Session.ProcessRun.consumes`: a loop is a run of the consumer.
* `Session.process_rests`, `Session.ProcessRun.of_process`: calls that nobody comes in the way of.
* `Session.Hosted.consumes_each_once`: calls, runs of calls, and processing.
-/

namespace Accelerator

/-! ### Published packets -/

/-- Changing an element puts another in its place. -/
theorem modify_eq_set {α : Type} {xs : Array α} {i : Nat} (inside : i < xs.size) (f : α → α) :
    xs.modify i f = xs.set i (f xs[i]) inside := by
  refine Array.ext (by simp) fun j hj hk => ?_
  rw [Array.getElem_modify, Array.getElem_set]
  split
  case isTrue here => subst here; rfl
  case isFalse => rfl

namespace PacketRing

variable {r : PacketRing} {i : UInt64}

/-- The number of slots with a published packet. -/
def published (r : PacketRing) : Nat :=
  r.slots.countP fun slot => !slot.header.isUnpublished

theorem published_le (r : PacketRing) : r.published ≤ r.slots.size :=
  Array.countP_le_size

/-- When a published packet is given back there is one less. -/
theorem published_retire (published : (r.header i).isUnpublished = false) :
    (r.retire i).published + 1 = r.published := by
  have inside := place_lt_of_published published
  have shown : r.slots[r.place i] = r.read i := by simp [read, Array.getD, inside]
  have before : (!r.slots[r.place i].header.isUnpublished) = true := by
    rw [shown]
    exact congrArg not published
  have after :
      (!(r.slots[r.place i].setWord Slot.unpublished.word).header.isUnpublished) = false := by
    rw [Slot.header, Slot.word_setWord, isUnpublished_unpublished]
    rfl
  have positive : 0 < r.published :=
    Array.countP_pos_iff.mpr ⟨_, Array.getElem_mem inside, before⟩
  rw [PacketRing.published, retire, modifySlot, modify_eq_set inside, Array.countP_set, before,
    after, if_pos rfl, if_neg Bool.false_ne_true, Nat.add_zero]
  exact Nat.succ_pred_eq_of_pos positive

theorem published_settle (published : (r.header i).isUnpublished = false) :
    (r.settle i).published + 1 = r.published := by
  rw [PacketRing.published, slots_settle]
  exact published_retire published

end PacketRing

namespace Session

open Accelerator.Action

variable {s t u : Session} {h : Handle} {q : Queue} {others : Session → Session → Prop}
variable {ends : List PacketView → Bool} {seen seen' : List PacketView} {p p' : Processing}
variable {handled more : List (PacketView × Consumed)} {index : UInt64}

/-! ### What one step finds -/

/-- What comes of looking at a slot. -/
theorem lookAt_cases (held : s.heldQueue? h = some q) (ends : List PacketView → Bool)
    (index : UInt64) (seen : List PacketView) :
    ((q.ring.header index).isUnpublished = true ∧
      s.lookAt h ends index seen = (.idle index, seen, s)) ∨
    ∃ view consumed t, (q.ring.header index).isUnpublished = false ∧
      s.consume q index (q.ring.word index) = (view, consumed, t) ∧
      s.lookAt h ends index seen =
        (consumed.leadsTo (ends (view :: seen)), view :: seen, t) := by
  have header : (Header.ofWord (q.ring.word index)).isUnpublished =
      (q.ring.header index).isUnpublished := rfl
  rw [lookAt, held]
  dsimp only
  rw [header]
  cases (q.ring.header index).isUnpublished with
  | true => exact .inl ⟨rfl, rfl⟩
  | false =>
    rcases s.consume q index (q.ring.word index) with ⟨view, consumed, t⟩
    exact .inr ⟨view, consumed, t, rfl, rfl, rfl⟩

/-- What comes of waiting for the doorbell. -/
theorem awaitDoorbell_cases (held : s.heldQueue? h = some q) :
    (q.isActive = true ∧ awaitDoorbell h s = (.ok (), s)) ∨
    (q.isActive = false ∧ awaitDoorbell h s = (.error (.invalidQueue h), s)) ∨
    ∃ cause, q.isActive = true ∧ (s.isOpen = false ∨
      s.signals.get? q.doorbell = none ∧ cause = .invalidSignal q.doorbell) ∧
        awaitDoorbell h s = (.error cause, s) := by
  have found : awaitDoorbell h s = (do
      require q.isActive (.invalidQueue h)
      discard (signal q.doorbell) : Action Unit) s := by
    rw [awaitDoorbell, bind_of_ok (session_apply s), held]
    rfl
  rw [found]
  cases q.isActive with
  | false => exact .inr (.inl ⟨rfl, rfl⟩)
  | true =>
    have rung : (require true (.invalidQueue h) >>= fun _ => discard (signal q.doorbell)) s =
        (discard (signal q.doorbell) : Action Unit) s := rfl
    rw [rung]
    rcases signal_cases q.doorbell s with ⟨bell, -, live, answer⟩ | ⟨cause, silent, answer⟩
    · exact .inl ⟨rfl, bind_of_ok answer⟩
    · exact .inr (.inr ⟨cause, rfl, silent, bind_of_error answer⟩)

/-- A queue that is not found. -/
theorem missing_of_error {e : Fault} (fault : queue h s = (.error e, s)) :
    (s.isOpen = false ∨ s.queues.get? h = none) ∧ e = s.queueFault h := by
  have missing : s.isOpen = false ∨ s.queues.get? h = none := by
    cases isOpen : s.isOpen with
    | false => exact .inl rfl
    | true =>
      cases live : s.queues.get? h with
      | none => exact .inr rfl
      | some q => cases fault.symm.trans (queue_eq_ok.mpr ⟨isOpen, live, rfl⟩)
  cases fault.symm.trans (QueueCall.queue_of_missing missing)
  exact ⟨missing, rfl⟩

/-! ### Runs of the loop -/

/-- The steps of a consumer that processes a queue, with those that others take between them. -/
inductive ProcessRun (h : Handle) (others : Session → Session → Prop)
    (ends : List PacketView → Bool) (s : Session) :
    Processing → List PacketView → Session → Prop where
  | call : ProcessRun h others ends s .next [] s
  | step {p p' : Processing} {seen seen' : List PacketView} {t u : Session}
      (before : ProcessRun h others ends s p seen t) (goesOn : p.hasEnded = false)
      (taken : stepProcess h ends (p, seen, t) = (p', seen', u)) :
      ProcessRun h others ends s p' seen' u
  | elsewhere {p : Processing} {seen : List PacketView} {t u : Session}
      (before : ProcessRun h others ends s p seen t) (goesOn : p.hasEnded = false)
      (other : others t u) : ProcessRun h others ends s p seen u

/-- In an earlier session the packet of an index, which was next, had not been published. Only
others have taken steps since. -/
def FoundNothing (h : Handle) (others : Session → Session → Prop) (index : UInt64)
    (t : Session) : Prop :=
  ∃ s q, s.heldQueue? h = some q ∧ q.ring.readIndex = index ∧
    (q.ring.header index).isUnpublished = true ∧ Relation.ReflTransGen others s t

/-- Where a consumer has got to, given the packets that the handler was given before: it has handled
some packets, all but the last of them completed, and the handler goes on after each of these. -/
inductive ProcessReaches (h : Handle) (others : Session → Session → Prop)
    (ends : List PacketView → Bool) :
    List PacketView → List (PacketView × Consumed) → Processing → Session → Prop where
  | handled {seen : List PacketView} {view : PacketView} {rest : List (PacketView × Consumed)}
      {p : Processing} {t : Session} (goesOn : ends (view :: seen) = false)
      (later : ProcessReaches h others ends (view :: seen) rest p t) :
      ProcessReaches h others ends seen ((view, .completed) :: rest) p t
  | exited {seen : List PacketView} {view : PacketView} {t : Session}
      (ended : ends (view :: seen) = true) :
      ProcessReaches h others ends seen [(view, .completed)] (.ended .exited) t
  | failed {seen : List PacketView} {view : PacketView} {cause : Fault} {t : Session} :
      ProcessReaches h others ends seen [(view, .failed cause)] (.ended (.failed cause)) t
  | overflowed {seen : List PacketView} {view : PacketView} {t : Session} :
      ProcessReaches h others ends seen [(view, .overflowed)] (.ended .overflowed) t
  | next {seen : List PacketView} {t : Session} : ProcessReaches h others ends seen [] .next t
  | looking {seen : List PacketView} {q : Queue} {t : Session}
      (held : t.heldQueue? h = some q) :
      ProcessReaches h others ends seen [] (.looking q.ring.readIndex) t
  /-- The next packet had not been published, but may be by now. -/
  | idle {seen : List PacketView} {q : Queue} {t : Session} (held : t.heldQueue? h = some q)
      (found : FoundNothing h others q.ring.readIndex t) :
      ProcessReaches h others ends seen [] (.idle q.ring.readIndex) t
  /-- The next packet had not been published, and reservations have ended. -/
  | inactive {seen : List PacketView} {q : Queue} {t : Session} (held : t.heldQueue? h = some q)
      (found : FoundNothing h others q.ring.readIndex t) (ended : q.isActive = false) :
      ProcessReaches h others ends seen [] (.ended (.failed (.invalidQueue h))) t
  /-- The next packet had not been published, and nothing can tell when it is. -/
  | mute {seen : List PacketView} {q : Queue} {cause : Fault} {t : Session}
      (held : t.heldQueue? h = some q) (found : FoundNothing h others q.ring.readIndex t)
      (active : q.isActive = true)
      (silent : t.isOpen = false ∨
        t.signals.get? q.doorbell = none ∧ cause = .invalidSignal q.doorbell) :
      ProcessReaches h others ends seen [] (.ended (.failed cause)) t
  /-- The queue is not there any more. -/
  | missing {seen : List PacketView} {t : Session}
      (gone : t.isOpen = false ∨ t.queues.get? h = none) :
      ProcessReaches h others ends seen [] (.ended (.failed (t.queueFault h))) t

/-- The packets of a run as a handler remembers them, the last in front. -/
def given (handled : List (PacketView × Consumed)) (seen : List PacketView) : List PacketView :=
  (handled.map (·.1)).reverse ++ seen

namespace ProcessReaches

/-- A consumer goes on from where it has got to. -/
theorem append (first : ProcessReaches h others ends seen handled p t)
    (goesOn : p.hasEnded = false)
    (second : ProcessReaches h others ends (given handled seen) more p' u) :
    ProcessReaches h others ends seen (handled ++ more) p' u := by
  induction first with
  | @handled seen view rest _ _ wanted _ ih =>
    refine .handled wanted (ih goesOn ?_)
    simpa [given] using second
  | next | looking | idle => exact second
  | exited | failed | overflowed | inactive | mute | missing => cases goesOn

/-- A consumer that looks at a slot looks at that of the packet which is next. -/
theorem looks (reached : ProcessReaches h others ends seen handled (.looking index) t) :
    ∃ q, t.heldQueue? h = some q ∧ q.ring.readIndex = index := by
  generalize place : Processing.looking index = p at reached
  induction reached with
  | handled _ _ ih => exact ih place
  | looking held => cases place; exact ⟨_, held, rfl⟩
  | exited | failed | overflowed | next | idle | inactive | mute | missing => cases place

/-- A consumer that is idle has found that the packet which is next was not published. -/
theorem idles (reached : ProcessReaches h others ends seen handled (.idle index) t) :
    ∃ q, t.heldQueue? h = some q ∧ q.ring.readIndex = index ∧
      FoundNothing h others index t := by
  generalize place : Processing.idle index = p at reached
  induction reached with
  | handled _ _ ih => exact ih place
  | idle held found => cases place; exact ⟨_, held, rfl, found⟩
  | exited | failed | overflowed | next | looking | inactive | mute | missing => cases place

/-- Others take a step. -/
theorem elsewhere (reached : ProcessReaches h others ends seen handled p t)
    (goesOn : p.hasEnded = false) (leave : LeaveReadIndex h others)
    (wf : t.queues.WellFormed Queue.handle) (other : others t u) :
    ProcessReaches h others ends seen handled p u := by
  obtain ⟨turn, step, spared⟩ := leave _ _ other
  induction reached with
  | handled wanted _ ih => exact .handled wanted (ih goesOn wf other step)
  | next => exact .next
  | looking held =>
    obtain ⟨q', held', same⟩ := step.sameReadIndex wf spared _ held
    rw [← same]
    exact .looking held'
  | idle held found =>
    obtain ⟨q', held', same⟩ := step.sameReadIndex wf spared _ held
    obtain ⟨v, q, before, read, unpublished, meanwhile⟩ := found
    rw [← same] at read unpublished ⊢
    exact .idle held' ⟨v, q, before, read, unpublished, meanwhile.tail other⟩
  | exited | failed | overflowed | inactive | mute | missing => cases goesOn

end ProcessReaches

/-- What a step of the consumer comes to, from where it has got to. -/
theorem stepProcess_spec (reached : ProcessReaches h others ends [] handled p t)
    (goesOn : p.hasEnded = false)
    (taken : stepProcess h ends (p, given handled [], t) = (p', seen', u)) :
    ∃ more, Consumption h others t more u ∧ seen' = given (handled ++ more) [] ∧
      ProcessReaches h others ends [] (handled ++ more) p' u := by
  cases p with
  | ended how => cases goesOn
  | next =>
    rw [stepProcess] at taken
    rcases loadReadIndex_cases h t with ⟨q, -, live, read⟩ | ⟨e, fault, refused⟩
    · rw [read] at taken
      cases taken
      exact ⟨[], .start, by simp [given],
        reached.append rfl (.looking (Directory.held?_of_get? live))⟩
    · rw [refused] at taken
      obtain ⟨gone, rfl⟩ := missing_of_error fault
      cases taken
      exact ⟨[], .start, by simp [given], reached.append rfl (.missing gone)⟩
  | looking index =>
    rw [stepProcess] at taken
    obtain ⟨q, held, rfl⟩ := reached.looks
    rcases lookAt_cases held ends q.ring.readIndex (given handled []) with
      ⟨unpublished, looked⟩ | ⟨view, consumed, v, published, consumes, looked⟩
    · cases looked.symm.trans taken
      exact ⟨[], .start, by simp [given],
        reached.append rfl (.idle held ⟨t, q, held, rfl, unpublished, .refl⟩)⟩
    · cases looked.symm.trans taken
      refine ⟨_, .consume .start held published consumes, by simp [given], ?_⟩
      refine reached.append rfl ?_
      cases consumed with
      | overflowed => exact .overflowed
      | failed cause => exact .failed
      | completed =>
        rw [Consumed.leadsTo]
        split
        case isTrue ended => exact .exited ended
        case isFalse wanted => exact .handled (Bool.eq_false_iff.mpr wanted) .next
  | idle index =>
    rw [stepProcess] at taken
    obtain ⟨q, held, rfl, found⟩ := reached.idles
    rcases awaitDoorbell_cases held with ⟨-, waited⟩ | ⟨ended, waited⟩ |
      ⟨cause, active, silent, waited⟩
    all_goals
      rw [waited] at taken
      cases taken
    · exact ⟨[], .start, by simp [given], reached.append rfl (.looking held)⟩
    · exact ⟨[], .start, by simp [given], reached.append rfl (.inactive held found ended)⟩
    · exact ⟨[], .start, by simp [given], reached.append rfl (.mute held found active silent)⟩

/-- Along a run of its loop a consumer consumes packets, and gets from one place to the next. -/
theorem ProcessRun.consumes (run : ProcessRun h others ends s p seen t)
    (leave : LeaveReadIndex h others) (wf : s.queues.WellFormed Queue.handle) :
    ∃ handled, Consumption h others s handled t ∧ seen = given handled [] ∧
      ProcessReaches h others ends [] handled p t := by
  induction run with
  | call => exact ⟨[], .start, rfl, .next⟩
  | step _ goesOn taken ih =>
    obtain ⟨handled, consumed, rfl, reached⟩ := ih
    obtain ⟨more, one, same, reaches⟩ := stepProcess_spec reached goesOn taken
    exact ⟨handled ++ more, consumed.trans one, same, reaches⟩
  | elsewhere _ goesOn other ih =>
    obtain ⟨handled, consumed, same, reached⟩ := ih
    exact ⟨handled, consumed.elsewhere other, same,
      reached.elsewhere goesOn leave (consumed.wellFormed leave wf) other⟩

/-! ### Calls that nobody comes in the way of -/

/-- A packet that is consumed is not published any more. -/
theorem one_less {view : PacketView} {completion : Consumed}
    (wf : s.queues.WellFormed Queue.handle) (held : s.heldQueue? h = some q)
    (published : (q.ring.header index).isUnpublished = false) {word : UInt32}
    (consumed : s.consume q index word = (view, completion, t)) :
    t.queues.WellFormed Queue.handle ∧
      ∃ q', t.heldQueue? h = some q' ∧ q'.ring.published + 1 = q.ring.published := by
  obtain rfl := wf.name_of_held? held
  obtain ⟨queues, sets, kept, all⟩ := consume_spec held index word
  cases all.symm.trans consumed
  exact ⟨kept wf, _, (sets.held _).trans (if_pos rfl), PacketRing.published_settle published⟩

/-- The steps that a consumer takes at most before it finds nothing published. -/
def stepsLeft (q : Queue) : Processing → Nat
  | .next => 2 * q.ring.published + 2
  | .looking _ => 2 * q.ring.published + 1
  | .idle _ | .ended _ => 0

/-- There is fuel as long as there are packets, since each packet that is handled takes one from
those that are published. -/
theorem handlePackets_rests (fuel : Nat) (wf : s.queues.WellFormed Queue.handle)
    (positive : p.isUnderway = true → 0 < fuel)
    (enough : ∀ q, s.heldQueue? h = some q → stepsLeft q p ≤ fuel) :
    (handlePackets h ends fuel (p, seen, s)).1.isUnderway = false := by
  induction fuel generalizing p seen s with
  | zero => exact Bool.eq_false_iff.mpr fun underway => Nat.lt_irrefl _ (positive underway)
  | succ fuel ih =>
    cases p with
    | idle | ended => rfl
    | next =>
      rw [handlePackets_of_underway rfl, stepProcess]
      rcases loadReadIndex_cases h s with ⟨q, -, live, read⟩ | ⟨e, -, refused⟩
      · rw [read]
        have bound := enough q (Directory.held?_of_get? live)
        rw [stepsLeft] at bound
        refine ih wf (fun _ => by omega) fun q' held' => ?_
        cases (Directory.held?_of_get? live).symm.trans held'
        rw [stepsLeft]
        omega
      · rw [refused, handlePackets_of_rest rfl]
        rfl
    | looking index =>
      rw [handlePackets_of_underway rfl, stepProcess]
      cases held : s.heldQueue? h with
      | none =>
        rw [lookAt, held, handlePackets_of_rest rfl]
        rfl
      | some q =>
        rcases lookAt_cases held ends index seen with
          ⟨-, looked⟩ | ⟨view, consumed, t, published, consumes, looked⟩
        · rw [looked, handlePackets_of_rest rfl]
          rfl
        · obtain ⟨wf', q', held', less⟩ := one_less wf held published consumes
          have bound := enough q held
          rw [stepsLeft] at bound
          rw [looked]
          cases consumed with
          | failed | overflowed =>
            rw [Consumed.leadsTo, handlePackets_of_rest rfl]
            rfl
          | completed =>
            rw [Consumed.leadsTo]
            split
            · rw [handlePackets_of_rest rfl]
              rfl
            · refine ih wf' (fun _ => by omega) fun q'' held'' => ?_
              cases held'.symm.trans held''
              rw [stepsLeft]
              omega

/-- A call finds nothing published, or the loop ends with it. -/
theorem process_rests (wf : s.queues.WellFormed Queue.handle) (h : Handle)
    (ends : List PacketView → Bool) : (process h ends s).1.isUnderway = false := by
  refine handlePackets_rests _ wf (fun _ => Nat.succ_pos _) fun q held => ?_
  have few := q.ring.published_le
  simp only [held, Option.map_some, Option.getD_some, stepsLeft]
  omega

namespace ProcessRun

theorem handlePackets (run : ProcessRun h others ends s p seen t) (fuel : Nat) {u : Session}
    (answer : Session.handlePackets h ends fuel (p, seen, t) = (p', seen', u)) :
    ProcessRun h others ends s p' seen' u := by
  induction fuel generalizing p seen t with
  | zero =>
    cases answer
    exact run
  | succ fuel ih =>
    cases underway : p.isUnderway with
    | false =>
      rw [handlePackets_of_rest underway] at answer
      cases answer
      exact run
    | true =>
      have goesOn : p.hasEnded = false := by
        cases p with
        | next | looking => rfl
        | idle | ended => cases underway
      rw [handlePackets_of_underway underway] at answer
      rcases taken : stepProcess h ends (p, seen, t) with ⟨_, _, _⟩
      rw [taken] at answer
      exact ih (run.step goesOn taken) answer

/-- A call that nobody comes in the way of is a run of the loop. -/
theorem of_process (answer : process h ends s = (p, seen, t)) :
    ProcessRun h others ends s p seen t :=
  handlePackets .call _ answer

end ProcessRun

/-! ### All of it -/

/-- A live queue and its consumer. Nothing is handled, and nothing happens, while the packet at the
read index has not been published. When it has been, one call handles that packet: its completion
signal is counted down, its slot is given back, and the read index moves on, also when the signal is
gone, and in all cases but one: when the next index does not fit 64 bits.

Along a run of calls, whatever producers and others do in between: if that case does not occur, the
packets handled are those of consecutive indices from the read index on, each once; and a signal
that nobody else has to do with is counted down once for each packet handled that names it.
Processing is a run of this kind too, in whichever of its steps the others come between. It handles
packets up to the first after which the handler ends it, or whose completion fails. Before that it
ends only if it has found that the next packet was not published, and the queue is not active then
or its doorbell is gone, or if it does not find the queue any more. A call that nobody comes in the
way of gets to such an end, or to a packet that is not published. -/
theorem Hosted.consumes_each_once (hosted : s.Hosted) (live : s.queues.get? h = some q) :
    ((q.ring.header q.ring.readIndex).isUnpublished = true → tryNext h s = (.ok none, s)) ∧
    ((q.ring.header q.ring.readIndex).isUnpublished = false → ∃ view outcome t,
      tryNext h s = (.ok (some (view, outcome)), t) ∧ Consumes q s view outcome t ∧
      ∀ others, Consumption h others s [(view, outcome)] t) ∧
    ∀ others, LeaveReadIndex h others →
      (∀ handled t, Consumption h others s handled t →
        (∀ x ∈ handled, ∃ q' u v, q'.handle = h ∧ Consumes q' u x.1 x.2 v) ∧
        ((∀ x ∈ handled, x.2 ≠ .overflowed) →
          handled.map (·.1.index.toNat) = List.range' q.ring.readIndex.toNat handled.length ∧
          ∃ q', t.heldQueue? h = some q' ∧
            q'.ring.readIndex.toNat = q.ring.readIndex.toNat + handled.length) ∧
        ∀ k, (∀ t u, others t u → u.signals.get? k = t.signals.get? k ∧ u.isOpen = t.isOpen) →
          t.signals.get? k = (s.signals.get? k).map fun signal => signal.setValue
            (signal.value - .ofNat (handled.countP fun x => x.1.Names k))) ∧
      ∀ ends, (∃ p seen t, process h ends s = (p, seen, t) ∧ p.isUnderway = false ∧
          ProcessRun h others ends s p seen t) ∧
        ∀ p seen t, ProcessRun h others ends s p seen t → ∃ handled,
          Consumption h others s handled t ∧ seen = given handled [] ∧
            ProcessReaches h others ends [] handled p t := by
  have isOpen := hosted.isOpen_of_live live
  have wf := hosted.wellFormed.queues
  have held := Directory.held?_of_get? live
  refine ⟨tryNext_unpublished isOpen live, fun published => ?_, fun others leave =>
    ⟨fun handled t run => ⟨run.each leave wf, run.consecutive leave wf held,
      fun k apart => (run.signals leave wf isOpen apart).2⟩,
      fun ends => ⟨⟨_, _, _, rfl, process_rests wf h ends, .of_process rfl⟩,
        fun p seen t run => run.consumes leave wf⟩⟩⟩
  obtain ⟨view, outcome, t, answer, consumed, consumes⟩ :=
    tryNext_published isOpen live (wf.named h q live) published
  exact ⟨view, outcome, t, answer, consumes, fun others => .consume .start held published consumed⟩

/-- The completion signal of a packet was destroyed before the packet is handled: the call fails
with the handle of that signal, but the packet has been consumed. -/
theorem consumes_stale_once : ∃ (s t : Session) (view : PacketView), s.Hosted ∧
    tryNext (.ofParts 0 1) s =
      (.ok (some (view, .failed (.invalidSignal (.ofParts 1 1)))), t) ∧
    (t.queues.get? (.ofParts 0 1)).map (fun q => (q.ring.readIndex, q.ring.word 0)) =
      some (1, Slot.unpublished.word) := by
  have opened : Ascending (.ofConfig .default) := .opened (c := .default) rfl
  have rings := opened.step (.lasting (o := .createSignal 0 0 [])
    ⟨by decide, by decide, by decide⟩ ⟨nofun, nofun⟩)
  have queued := rings.step (.lasting
    (o := .createSoftQueue (.ofParts 0 1) 2 .multi .agentDispatch (.ofParts 0 1))
    ⟨by decide, by decide, by decide⟩ ⟨nofun, nofun⟩)
  have signalled := queued.step (.lasting (o := .createSignal 1 0 [])
    ⟨by decide, by decide, by decide⟩ ⟨nofun, nofun⟩)
  have submitted := signalled.step (.lasting (o := .submit (.ofParts 0 1)
      ⟨.ofBytes (List.replicate 56 0 ++ Packet.word64 (.ofParts 1 1 : Handle).raw),
        .ofType .agentDispatch, 7⟩)
    ⟨by decide, by decide, by decide⟩ ⟨nofun, nofun⟩)
  have destroyed := submitted.step (.lasting (o := .destroySignal (.ofParts 1 1))
    ⟨by decide, by decide, by decide⟩ ⟨nofun, nofun⟩)
  obtain ⟨s, hosted, q, live, published, first, named, stale⟩ : ∃ s : Session, s.Hosted ∧ ∃ q,
      s.queues.get? (.ofParts 0 1) = some q ∧
      (q.ring.header q.ring.readIndex).isUnpublished = false ∧ q.ring.readIndex = 0 ∧
      (PacketView.ofWord q.ring q.ring.readIndex (q.ring.word q.ring.readIndex)).completion =
        (Handle.ofParts 1 1).raw ∧ s.signals.get? (.ofParts 1 1) = none :=
    ⟨_, destroyed.hosted, _, rfl, by decide, rfl, by decide, rfl⟩
  obtain ⟨-, handles, -⟩ := hosted.consumes_each_once live
  obtain ⟨view, outcome, t, answer, consumes, -⟩ := handles published
  obtain ⟨ring, retires, moved, -, after⟩ := consumes.queue
  rw [← consumes.shown] at named
  refine ⟨s, t, view, hosted, ?_, ?_⟩
  · cases outcome with
    | completed =>
      obtain ⟨-, none | ⟨-, signal, signalled⟩⟩ := consumes.completed.mp rfl
      · exact absurd (named.symm.trans none) (by decide)
      · rw [named] at signalled
        cases stale.symm.trans signalled
    | failed cause =>
      obtain rfl := consumes.failed cause rfl (hosted.isOpen_of_live live)
      rw [named] at answer
      exact answer
    | overflowed =>
      have last := consumes.overflowed.mp rfl
      rw [first] at last
      exact absurd last (by decide)
  · have named := hosted.wellFormed.queues.named _ q live
    rw [first] at moved retires
    rw [after, if_pos named.symm, live]
    exact congrArg some (Prod.ext (UInt64.toNat_inj.mp moved) retires.word)

/-- The consumer is behind the last index that there is: the packet is handled, but the read index
stays where it is. -/
theorem stays_at_last_index : ∃ (s t : Session) (q : Queue) (view : PacketView), s.Hosted ∧
    s.queues.get? (.ofParts 0 1) = some q ∧
    (q.ring.header q.ring.readIndex).isUnpublished = false ∧
    tryNext (.ofParts 0 1) s = (.ok (some (view, .overflowed)), t) ∧
    (t.queues.get? (.ofParts 0 1)).map (·.ring.readIndex) = some q.ring.readIndex := by
  have opened : Ascending (.ofConfig .default) := .opened (c := .default) rfl
  have rings := opened.step (.lasting (o := .createSignal 0 0 [])
    ⟨by decide, by decide, by decide⟩ ⟨nofun, nofun⟩)
  have queued := rings.step (.lasting
    (o := .createSoftQueue (.ofParts 0 1) 2 .multi .agentDispatch (.ofParts 0 1))
    ⟨by decide, by decide, by decide⟩ ⟨nofun, nofun⟩)
  have moved := queued.step (.lasting
    (o := .storeReadIndex (.ofParts 0 1) 0xffffffffffffffff .relaxed)
    ⟨by decide, by decide, by decide⟩ ⟨nofun, nofun⟩)
  have published := moved.step (.lasting
    (o := .publish (.ofParts 0 1) 0xffffffffffffffff (.ofType .agentDispatch) 0)
    ⟨by decide, by decide, by decide⟩ ⟨nofun, nofun⟩)
  exact ⟨_, _, _, _, published.hosted, rfl, by decide, rfl, rfl⟩

end Session

end Accelerator
