import Accelerator.Proofs.Processor.Deeds

/-!
# Ending reservations

When the application ends the reservations of a queue, its command processor goes on: the packets
that were published are consumed as if nothing had happened, and only then it stops. It asks for the
stage of its queue where it has found nothing published, and nowhere else. In particular a barrier
that holds the processor still holds it, and still lets it go on.

To say this, two runs are compared in which the same turns are taken, up to the end of the
reservations, which may come at any place in one of them. All turns are those of command processors
and of an application that has to do with signals. A processor that has nothing to do lets its turn
pass. So in both runs the same is done with packets, turn by turn, and the sessions stay twins: they
differ in the stage of the queue, and in that one processor may have stopped where the other one
looks at a slot in which nothing is published.

There is one exception. A processor looks at a slot in one step and asks for the stage of its queue
in the next. If a packet is published between the two, and the reservations are ended after that,
but still before the second step, the processor stops without having looked again, and the packet is
lost. So it is required of the queue that its processor is *attentive*: where it has found nothing
published, nothing is. The queues of runs in which nothing is published any more stay so.

## Main definitions

* `Session.Edits`: a session that comes from another by a change of one queue.
* `Session.Attentive`: the processor of a queue has not overlooked a packet.
* `Session.Twins`: sessions that differ in the end of one queue.

## Main results

* `Session.Twins.steps`: processors that do the same in twins go on to do the same.
* `Session.Twins.play`: the same turns lead from twins to twins.
* `Session.Hosted.inactivation_transparent`: packets that are published are not affected.
* `Session.inactivation_loses`: a packet that was overlooked, and is lost.
-/

namespace Accelerator

namespace Session

open Accelerator.Action

variable {s t m n : Session} {h k : Handle} {q q' : Queue} {p : Processor}

/-! ### Twins -/

/-- One session comes from another by a change of one queue, and what is not a queue. -/
def Edits (k : Handle) (f : Queue → Queue) (s t : Session) : Prop :=
  ∀ j, t.queues.get? j = if j = k then (s.queues.get? k).map f else s.queues.get? j

theorem Edits.trans {f g : Queue → Queue} (first : Edits k f s t) (second : Edits k g t m) :
    Edits k (g ∘ f) s m := fun j => by
  rw [second j, first k, first j, if_pos rfl, Option.map_map]
  split <;> rfl

theorem edits_modifyQueue (s : Session) (k : Handle) (f : Queue → Queue) :
    Edits k f s (s.modifyQueue k f) :=
  fun j => Directory.get?_modify s.queues k j f

theorem Edits.congr {f : Queue → Queue} (edits : Edits k f s t) (same : m.queues = t.queues) :
    Edits k f s m := fun j => by
  rw [same]
  exact edits j

/-- A queue after its end, and the same queue if it had not ended. -/
def Ended (q q' : Queue) : Prop :=
  q' = { q.inactivate with processor := q'.processor }

/-- Nothing is published where a processor looks, or has looked. -/
def LooksAtNothing (q : Queue) (p : Processor) : Prop :=
  (p.state = .ready ∨ p.state = .idle) ∧ (q.ring.header p.index).isUnpublished = true

/-- Where the processor of a queue has found nothing published, nothing is: it has not overlooked a
packet. -/
def Attentive (q : Queue) : Prop :=
  ∀ p, q.processor = some p → p.state = .idle → (q.ring.header p.index).isUnpublished = true

theorem attentive_setProcessor (q : Queue) {p : Processor}
    (attends : p.state = .idle → (q.ring.header p.index).isUnpublished = true) :
    Attentive (q.setProcessor p) := by
  rintro _ ⟨⟩
  exact attends

/-- A queue after its end, and the same queue if it had not ended. The processor does the same, or
it has stopped where the other one looks at nothing. -/
structure Twin (q q' : Queue) : Prop where
  ended : Ended q q'
  attentive : Attentive q
  processor : q'.processor = q.processor ∨ ∃ p, q.processor = some p ∧ LooksAtNothing q p ∧
    q'.processor = some { p with state := .stopped }

/-- Sessions that differ in the end of a queue. -/
structure Twins (h : Handle) (s t : Session) : Prop where
  rest : { s with queues := t.queues } = t
  others : ∀ k, k ≠ h → t.queues.get? k = s.queues.get? k
  own : ∃ q q', s.queues.get? h = some q ∧ t.queues.get? h = some q' ∧ Twin q q'

theorem inactivate_modifyRing (q : Queue) (f : PacketRing → PacketRing) :
    (q.modifyRing f).inactivate = q.inactivate.modifyRing f := by
  rw [Queue.inactivate, Queue.inactivate]
  change (if q.isActive then _ else _) = _
  split <;> rfl

theorem inactivate_setProcessor (q : Queue) (p : Processor) :
    (q.setProcessor p).inactivate = q.inactivate.setProcessor p := by
  rw [Queue.inactivate, Queue.inactivate]
  change (if q.isActive then _ else _) = _
  split <;> rfl

namespace Ended

theorem alike (ended : Ended q q') : Alike q q' := by
  rw [ended]
  constructor
  all_goals
    rw [Queue.inactivate]
    split <;> rfl

theorem isActive (ended : Ended q q') : q'.isActive = false := by
  rw [ended]
  exact inactivate_isActive q

theorem modifyRing (ended : Ended q q') (f : PacketRing → PacketRing) :
    Ended (q.modifyRing f) (q'.modifyRing f) := by
  rw [Ended, inactivate_modifyRing]
  exact congrArg (Queue.modifyRing · f) ended

theorem inactivate (ended : Ended q q') : Ended q.inactivate q'.inactivate := by
  have again : q'.inactivate = q' := by
    rw [Queue.inactivate, if_neg (Bool.eq_false_iff.mp ended.isActive)]
  have twice : q.inactivate.inactivate = q.inactivate := by
    rw [Queue.inactivate, if_neg (Bool.eq_false_iff.mp (inactivate_isActive q))]
  rw [Ended, again, twice]
  exact ended

theorem setProcessor_left (ended : Ended q q') (p : Processor) : Ended (q.setProcessor p) q' := by
  rw [Ended, inactivate_setProcessor]
  exact ended

theorem setProcessor_right (ended : Ended q q') (p : Processor) : Ended q (q'.setProcessor p) := by
  have same : q'.setProcessor p = _ := congrArg (Queue.setProcessor · p) ended
  exact same

/-- Once the processors do the same, the queues are twins. -/
theorem setProcessor (ended : Ended q q') {p : Processor}
    (attends : p.state = .idle → (q.ring.header p.index).isUnpublished = true) :
    Twin (q.setProcessor p) (q'.setProcessor p) :=
  ⟨(ended.setProcessor_left p).setProcessor_right p, attentive_setProcessor q attends, .inl rfl⟩

end Ended

/-- The same is done to a queue in both sessions. -/
theorem Twins.edit {f f' : Queue → Queue} (twins : Twins h s t)
    (rest : { m with queues := n.queues } = n) (one : Edits k f s m) (two : Edits k f' t n)
    (others : k ≠ h → f' = f) (own : ∀ q q', s.queues.get? h = some q →
      t.queues.get? h = some q' → Twin q q' → k = h → Twin (f q) (f' q')) : Twins h m n := by
  obtain ⟨q, q', live, live', twin⟩ := twins.own
  refine ⟨rest, fun j apart => ?_, ?_⟩
  · rw [two j, one j, twins.others j apart]
    split
    case isTrue here =>
      have spared : k ≠ h := here ▸ apart
      rw [others spared, twins.others k spared]
    case isFalse => rfl
  · by_cases here : h = k
    · refine ⟨f q, f' q', ?_, ?_, own q q' live live' twin here.symm⟩
      · rw [one h, if_pos here, ← here, live, Option.map_some]
      · rw [two h, if_pos here, ← here, live', Option.map_some]
    · refine ⟨q, q', ?_, ?_, twin⟩
      · rw [one h, if_neg here, live]
      · rw [two h, if_neg here, live']

/-! ### Steps of processors in twins -/

theorem edits_failPacket (s : Session) (q : Queue) (p : Processor) (cause : Fault) :
    Edits q.handle ((·.setProcessor { p with state := .stopped }) ∘ Queue.inactivate) s
      (s.failPacket q p cause) :=
  ((edits_modifyQueue s q.handle _).trans (edits_modifyQueue _ q.handle _)).congr
    (queues_failPacket s q p cause)

/-- What the completion of a packet does to the queue. -/
def advanced (p : Processor) (q : Queue) : Queue :=
  match Word.add? p.index 1 with
  | none => (q.modifyRing (·.retire p.index)).setProcessor { p with state := .crashed }
  | some next =>
    ((q.modifyRing (·.retire p.index)).modifyRing (·.setReadIndex next)).setProcessor ⟨next, .ready⟩

theorem edits_advance (s : Session) (q : Queue) (p : Processor) :
    Edits q.handle (advanced p) s (s.advance q p) := by
  have retired := edits_modifyQueue s q.handle (·.modifyRing (·.retire p.index))
  unfold advanced
  rw [advance]
  cases Word.add? p.index 1 with
  | none => exact retired.trans (edits_modifyQueue _ q.handle _)
  | some next =>
    exact (retired.trans (edits_modifyQueue _ q.handle _)).trans (edits_modifyQueue _ q.handle _)

theorem Ended.advanced (ended : Ended q q') (p : Processor) :
    Twin (advanced p q) (advanced p q') := by
  unfold Session.advanced
  cases Word.add? p.index 1 with
  | none => exact (ended.modifyRing _).setProcessor nofun
  | some next => exact ((ended.modifyRing _).modifyRing _).setProcessor nofun

/-- What a processor does to its queue makes a queue and its twin do the same. -/
def Reunites (f : Queue → Queue) : Prop :=
  ∀ q q', Ended q q' → Twin (f q) (f q')

theorem Twins.reunite {f : Queue → Queue} (twins : Twins h s t)
    (rest : { m with queues := n.queues } = n) (one : Edits k f s m) (two : Edits k f t n)
    (reunites : Reunites f) : Twins h m n :=
  twins.edit rest one two (fun _ => rfl) fun q q' _ _ twin _ => reunites q q' twin.ended

section Step

variable {d : Directory Queue} (twins : Twins h s { s with queues := d })
include twins

theorem Twins.elsewhere (same : m.queues = s.queues) : Twins h m { m with queues := d } where
  rest := rfl
  others k apart := same ▸ twins.others k apart
  own := same ▸ twins.own

variable (alike : Alike q q') (p)
include alike

theorem Twins.setProcessor (attends : p.state = .idle → q.handle ≠ h) :
    Twins h (s.setProcessor q p) (Session.setProcessor { s with queues := d } q' p) := by
  rw [Session.setProcessor, Session.setProcessor, alike.handle]
  exact twins.edit rfl (edits_modifyQueue _ _ _) (edits_modifyQueue _ _ _) (fun _ => rfl)
    fun _ _ _ _ twin own => twin.ended.setProcessor fun idle => absurd own (attends idle)

theorem Twins.failPacket (cause : Fault) :
    Twins h (s.failPacket q p cause) (Session.failPacket { s with queues := d } q' p cause) := by
  refine twins.reunite ?_ (s.edits_failPacket q p cause)
    (alike.handle ▸ edits_failPacket _ q' p cause)
    fun _ _ ended => ended.inactivate.setProcessor nofun
  rw [Session.failPacket, Session.failPacket, alike.notifies, alike.handle]
  split <;> rfl

theorem Twins.advance :
    Twins h (s.advance q p) (Session.advance { s with queues := d } q' p) := by
  refine twins.reunite ?_ (s.edits_advance q p) (alike.handle ▸ edits_advance _ q' p)
    fun _ _ ended => ended.advanced p
  rw [Session.advance, Session.advance, alike.handle]
  split <;> rfl

variable {p} (running : q.processor = some p) (running' : q'.processor = some p)
include running running'

/-- Processors that do the same in twins go on to do the same. Where nothing is published, that
depends on the stage of the queue. -/
theorem Twins.steps (apart : q.handle ≠ h ∧ q'.isActive = q.isActive ∨
    p.state ≠ .idle ∧ (p.state = .ready → (q.ring.header p.index).isUnpublished = false)) :
    Option.Rel (Twins h) (s.stepProcessor? q)
      (stepProcessor? { s with queues := d } q') := by
  rw [stepProcessor?, stepProcessor?, running, running']
  dsimp only
  cases state : p.state with
  | stopped | crashed => exact .none
  | held b =>
    dsimp only
    rw [barrierOpens_queues s d b]
    cases s.barrierOpens b with
    | error cause => exact .some (twins.failPacket p alike cause)
    | ok answer =>
      cases answer with
      | false => exact .none
      | true => exact .some (twins.setProcessor _ alike fun idle => by cases idle)
  | idle =>
    obtain ⟨other, stage⟩ := apart.resolve_right fun awake => awake.1 state
    dsimp only
    rw [alike.doorbell, stage]
    by_cases stays : (q.isActive && s.signals.isLive q.doorbell) = true
    · rw [if_pos stays, if_pos stays]
      exact .some (twins.setProcessor _ alike fun _ => other)
    · rw [if_neg stays, if_neg stays]
      exact .some (twins.setProcessor _ alike fun _ => other)
  | finishing completion =>
    refine .some ?_
    cases completion with
    | none => exact twins.advance p alike
    | some k =>
      dsimp only [finishPacket]
      by_cases live : s.signals.isLive k = true
      · rw [if_pos live, if_pos live]
        exact (twins.elsewhere (m := s.countDown (some k)) rfl).advance p alike
      · rw [if_neg live, if_neg live]
        exact twins.failPacket p alike _
  | ready =>
    dsimp only
    rw [alike.ring]
    by_cases vacant : (Header.ofWord (q.ring.word p.index)).isUnpublished = true
    · rw [if_pos vacant, if_pos vacant]
      rcases apart with ⟨other, -⟩ | ⟨-, published⟩
      · exact .some (twins.setProcessor _ alike fun _ => other)
      · cases vacant.symm.trans (published state)
    · rw [if_neg vacant, if_neg vacant, examine_queues s d alike]
      have moved := twins.elsewhere (queues_examine s q p.index (q.ring.word p.index))
      generalize s.examine q p.index (q.ring.word p.index) = result at moved ⊢
      obtain ⟨came, m⟩ := result
      cases came with
      | done | held | crashed => exact .some (moved.setProcessor _ alike fun idle => by cases idle)
      | failed cause => exact .some (moved.failPacket p alike cause)

end Step

/-! ### Turns in twins -/

/-- The same has been done with packets, and the sessions are twins. -/
def SameTurn (h : Handle) (one two : List (Handle × Deed) × Session) : Prop :=
  two.1 = one.1 ∧ Twins h one.2 two.2

/-- Processors that do the same do the same with packets. -/
theorem Twins.sameTurn {d : Directory Queue} (twins : Twins h s { s with queues := d })
    (alike : Alike q q') (live : s.queues.get? k = some q) (live' : d.get? k = some q')
    (processor : q'.processor = q.processor)
    (apart : ∀ p, q.processor = some p → q.handle ≠ h ∧ q'.isActive = q.isActive ∨
      p.state ≠ .idle ∧ (p.state = .ready → (q.ring.header p.index).isUnpublished = false)) :
    SameTurn h (s.takeTurn (.processor k)) (takeTurn { s with queues := d } (.processor k)) := by
  have there : ({ s with queues := d } : Session).queues.get? k = some q' := live'
  rw [takeTurn, takeTurn, live, there]
  dsimp only
  cases running : q.processor with
  | none =>
    rw [processor, running]
    exact ⟨rfl, twins⟩
  | some p =>
    have steps := twins.steps alike running (processor.trans running) (apart p running)
    rw [processor, running]
    generalize s.stepProcessor? q = one at steps ⊢
    generalize stepProcessor? { s with queues := d } q' = two at steps ⊢
    cases steps with
    | none => exact ⟨rfl, twins⟩
    | some after =>
      refine ⟨?_, after⟩
      exact congrArg (List.map fun deed => (k, deed)) (deeds_queues s d alike p)

/-- What a processor does next where nothing is published: it has looked, and looks again or
stops. -/
inductive Looks (s : Session) (q : Queue) : ProcessorState → ProcessorState → Prop where
  | look : Looks s q .ready .idle
  | resume (stays : (q.isActive && s.signals.isLive q.doorbell) = true) : Looks s q .idle .ready
  | leave (gone : (q.isActive && s.signals.isLive q.doorbell) = false) : Looks s q .idle .stopped

/-- Where nothing is published, a processor does nothing with packets. -/
theorem takeTurn_nothing (live : s.queues.get? k = some q) (running : q.processor = some p)
    (nothing : LooksAtNothing q p) : ∃ state, s.Looks q p.state state ∧
      s.takeTurn (.processor k) = ([], s.setProcessor q { p with state }) := by
  obtain ⟨index, state⟩ := p
  obtain ⟨rfl | rfl, vacant⟩ := nothing
  · have vacant : (Header.ofWord (q.ring.word index)).isUnpublished = true := vacant
    refine ⟨_, .look, ?_⟩
    simp [takeTurn, live, stepProcessor?, running, vacant, deeds, PacketRing.header]
  · cases stays : q.isActive && s.signals.isLive q.doorbell with
    | true =>
      refine ⟨_, .resume stays, ?_⟩
      simp [takeTurn, live, stepProcessor?, running, stays, deeds]
    | false =>
      refine ⟨_, .leave stays, ?_⟩
      simp [takeTurn, live, stepProcessor?, running, stays, deeds]

theorem takeTurn_stopped (live : s.queues.get? k = some q) (running : q.processor = some p)
    (state : p.state = .stopped) : s.takeTurn (.processor k) = ([], s) := by
  rw [takeTurn, live]
  dsimp only
  rw [stepProcessor?, running]
  dsimp only
  rw [state]

theorem edits_id (s : Session) (k : Handle) : Edits k id s s := fun j => by
  split
  case isTrue here => rw [here, Option.map_id_fun, id]
  case isFalse => rfl

section Nothing

variable {d : Directory Queue} (twins : Twins h s { s with queues := d })
variable (live : s.queues.get? h = some q) (live' : d.get? h = some q')
include twins live live'

/-- The queue that has ended in one of the sessions is changed in both. -/
theorem Twins.become {f f' : Queue → Queue} (rest : { m with queues := n.queues } = n)
    (one : Edits h f s m) (two : Edits h f' { s with queues := d } n) (after : Twin (f q) (f' q')) :
    Twins h m n := by
  refine twins.edit rest one two (fun apart => absurd rfl apart) ?_
  rintro q₀ q₀' there there' - -
  obtain rfl := Option.some.inj (live.symm.trans there)
  obtain rfl := Option.some.inj (live'.symm.trans there')
  exact after

variable (named : q.handle = h) (twin : Twin q q') (running : q.processor = some p)
variable (nothing : LooksAtNothing q p)
include named twin running nothing

/-- A processor looks at nothing in both sessions. Once it has looked, it stops where the queue has
ended. -/
theorem Twins.stops (running' : q'.processor = some p) :
    SameTurn h (s.takeTurn (.processor h)) (takeTurn { s with queues := d } (.processor h)) := by
  have nothing' : LooksAtNothing q' p := by
    rw [LooksAtNothing, twin.ended.alike.ring]
    exact nothing
  obtain ⟨next, looks, turn⟩ := takeTurn_nothing live running nothing
  obtain ⟨next', looks', turn'⟩ :=
    takeTurn_nothing (s := { s with queues := d }) live' running' nothing'
  have after : Twin (q.setProcessor { p with state := next })
      (q'.setProcessor { p with state := next' }) := by
    generalize state : p.state = now at looks looks'
    cases looks with
    | look =>
      cases looks'
      exact twin.ended.setProcessor fun _ => nothing.2
    | resume =>
      cases looks' with
      | resume stays => rw [twin.ended.isActive] at stays; cases stays
      | leave =>
        refine ⟨(twin.ended.setProcessor_left _).setProcessor_right _,
          attentive_setProcessor q nofun, .inr ⟨_, rfl, ⟨.inl rfl, nothing.2⟩, rfl⟩⟩
    | leave =>
      cases looks' with
      | resume stays => rw [twin.ended.isActive] at stays; cases stays
      | leave => exact twin.ended.setProcessor nofun
  rw [turn, turn', Session.setProcessor, Session.setProcessor, twin.ended.alike.handle, named]
  exact ⟨rfl, twins.become live live' rfl (edits_modifyQueue _ _ _) (edits_modifyQueue _ _ _) after⟩

/-- The processor of the queue that has ended has stopped before. -/
theorem Twins.follows (stopped : q'.processor = some { p with state := .stopped }) :
    SameTurn h (s.takeTurn (.processor h)) (takeTurn { s with queues := d } (.processor h)) := by
  obtain ⟨next, looks, turn⟩ := takeTurn_nothing live running nothing
  have edits : Edits h (·.setProcessor { p with state := next }) s
      (s.setProcessor q { p with state := next }) := by
    rw [Session.setProcessor, named]
    exact edits_modifyQueue _ _ _
  have after : Twin (q.setProcessor { p with state := next }) q' := by
    have ended := twin.ended.setProcessor_left { p with state := next }
    generalize state : p.state = now at looks
    cases looks with
    | look =>
      exact ⟨ended, attentive_setProcessor q fun _ => nothing.2,
        .inr ⟨_, rfl, ⟨.inr rfl, nothing.2⟩, stopped⟩⟩
    | resume =>
      exact ⟨ended, attentive_setProcessor q nofun,
        .inr ⟨_, rfl, ⟨.inl rfl, nothing.2⟩, stopped⟩⟩
    | leave => exact ⟨ended, attentive_setProcessor q nofun, .inl stopped⟩
  rw [turn, takeTurn_stopped (s := { s with queues := d }) live' stopped rfl]
  exact ⟨rfl, twins.become live live' rfl edits (edits_id _ h) after⟩

end Nothing

/-- A turn of any processor. -/
theorem Twins.takeTurn_processor {d : Directory Queue} (twins : Twins h s { s with queues := d })
    (wf : s.queues.WellFormed Queue.handle) (k : Handle) :
    SameTurn h (s.takeTurn (.processor k)) (takeTurn { s with queues := d } (.processor k)) := by
  by_cases own : k = h
  case neg =>
    have same : d.get? k = s.queues.get? k := twins.others k own
    cases live : s.queues.get? k with
    | none =>
      have gone : ({ s with queues := d } : Session).queues.get? k = none := same.trans live
      rw [takeTurn, takeTurn, live, gone]
      exact ⟨rfl, twins⟩
    | some q =>
      have other : q.handle ≠ h := wf.named k q live ▸ own
      exact twins.sameTurn (.refl q) live (same.trans live) rfl fun _ _ => .inl ⟨other, rfl⟩
  case pos =>
    subst own
    obtain ⟨q, q', live, live', twin⟩ := twins.own
    have named := wf.named k q live
    rcases twin.processor with same | ⟨p, running, nothing, stopped⟩
    · by_cases looks : ∃ p, q.processor = some p ∧ LooksAtNothing q p
      · obtain ⟨p, running, nothing⟩ := looks
        exact twins.stops live live' named twin running nothing (same.trans running)
      · refine twins.sameTurn twin.ended.alike live live' same fun p running =>
          .inr ⟨fun idle => looks ⟨p, running, .inr idle, twin.attentive p running idle⟩,
            fun ready => Bool.eq_false_iff.mpr fun vacant =>
              looks ⟨p, running, .inl ready, vacant⟩⟩
    · exact twins.follows live live' named twin running nothing stopped

/-- One turn leads from twins to twins, and the same is done with packets in both. -/
theorem Twins.takeTurn {turn : Turn} (twins : Twins h s t) (wf : s.queues.WellFormed Queue.handle)
    (leaves : turn.LeavesQueues) : SameTurn h (s.takeTurn turn) (t.takeTurn turn) := by
  obtain ⟨d, rfl⟩ : ∃ d, t = { s with queues := d } := ⟨t.queues, twins.rest.symm⟩
  cases turn with
  | processor k => exact twins.takeTurn_processor wf k
  | application o =>
    refine ⟨rfl, ?_⟩
    change Twins h (o.perform s) (o.perform { s with queues := d })
    rw [perform_queues leaves s d]
    exact twins.elsewhere (queues_perform leaves s)

theorem takeTurn_wellFormed {turn : Turn} (wf : s.queues.WellFormed Queue.handle)
    (leaves : turn.LeavesQueues) : (s.takeTurn turn).2.queues.WellFormed Queue.handle := by
  cases turn with
  | application o =>
    change (o.perform s).queues.WellFormed Queue.handle
    rwa [queues_perform leaves]
  | processor k =>
    rcases s.takeTurn_processor k with same | ⟨q, p, t, -, -, -, move, same⟩
    · rwa [same]
    · rw [same]
      exact move.changes.wellFormed wf

/-- The same turns lead from twins to twins, and the same is done with packets in both runs. -/
theorem Twins.play {turns : List Turn} (twins : Twins h s t)
    (wf : s.queues.WellFormed Queue.handle) (leave : ∀ turn ∈ turns, turn.LeavesQueues) :
    SameTurn h (s.play turns) (t.play turns) := by
  induction turns generalizing s t with
  | nil => exact ⟨rfl, twins⟩
  | cons turn rest ih =>
    obtain ⟨first, others⟩ := List.forall_mem_cons.mp leave
    obtain ⟨same, after⟩ := twins.takeTurn wf first
    obtain ⟨later, final⟩ := ih after (takeTurn_wellFormed wf first) others
    rw [play_cons, play_cons]
    exact ⟨by rw [same, later], final⟩

/-! ### The end of reservations -/

/-- A step of a processor changes its queue. -/
theorem Move.edits {deeds : List Deed} (move : s.Move q p deeds t) :
    ∃ f, Edits q.handle f s t := by
  cases move with
  | look | resume | leave | skip | hold | crash | pass => exact ⟨_, edits_modifyQueue s q.handle _⟩
  | @run _ l => exact ⟨_, edits_modifyQueue (s.runLaunch l).2 q.handle _⟩
  | @panic l => exact ⟨_, edits_failPacket (s.runLaunch l).2 q p _⟩
  | refuse | give | miss => exact ⟨_, s.edits_failPacket q p _⟩
  | @complete completion =>
    obtain ⟨queues, -⟩ := s.sameQueues_countDown completion
    have edits := edits_advance (s.countDown completion) q p
    rw [Edits, queues] at edits
    exact ⟨_, edits⟩

/-- The session is open, and a queue is live whose processor is attentive. -/
def Serves (h : Handle) (s : Session) : Prop :=
  s.isOpen = true ∧ ∃ q, s.queues.get? h = some q ∧ Attentive q

theorem serves_perform {o : Operation} (leaves : (Turn.application o).LeavesQueues)
    (serves : Serves h s) : Serves h (o.perform s) := by
  have routine : s.Routine (fun _ => False) (o.perform s) → (o.perform s).isOpen = s.isOpen :=
    fun routine => routine.sameAccounts.isOpen
  refine ⟨Eq.trans ?_ serves.1, queues_perform leaves s ▸ serves.2⟩
  cases o with
  | createSignal => exact (keeps_createSignal _ _ _ s).isOpen
  | destroySignal => exact routine (keeps_destroySignal _ s)
  | storeSignal => exact routine (keeps_storeSignal _ _ _ s)
  | updateSignal => exact routine (keeps_updateSignal _ _ _ s)
  | advanceTo => rfl
  | _ => exact leaves.elim

/-- The processor of a queue looks before it notes that nothing is published. -/
theorem Leaves.attentive (left : s.Leaves q p q') : Attentive q' := by
  cases left with
  | look vacant => exact attentive_setProcessor q fun _ => vacant
  | resume | stop | hold | finish | fail | crash | next | exhaust =>
    exact attentive_setProcessor _ nofun

/-- Nothing that is left to processors and signals destroys a queue, or publishes a packet. -/
theorem serves_takeTurn {turn : Turn} (wf : s.queues.WellFormed Queue.handle)
    (leaves : turn.LeavesQueues) (serves : Serves h s) : Serves h (s.takeTurn turn).2 := by
  cases turn with
  | application o => exact serves_perform leaves serves
  | processor k =>
    rcases s.takeTurn_processor k with same | ⟨q, p, t, live, running, stepped, move, same⟩
    · rwa [same]
    · rw [same]
      obtain rfl : q.handle = k := wf.named k q live
      obtain ⟨isOpen, q₀, there, attentive⟩ := serves
      refine ⟨move.changes.isOpen_eq_of_one.trans isOpen, ?_⟩
      by_cases own : h = q.handle
      · obtain ⟨f, edits⟩ := move.edits
        have after : t.queues.get? q.handle = some (f q) := by
          rw [edits, if_pos rfl, live, Option.map_some]
        exact ⟨f q, own ▸ after, (move.leaves running stepped live after).attentive⟩
      · exact ⟨q₀, (move.get?_of_ne own).trans there, attentive⟩

theorem serves_play {turns : List Turn} (wf : s.queues.WellFormed Queue.handle)
    (leave : ∀ turn ∈ turns, turn.LeavesQueues) (serves : Serves h s) :
    (s.play turns).2.queues.WellFormed Queue.handle ∧ Serves h (s.play turns).2 := by
  induction turns generalizing s with
  | nil => exact ⟨wf, serves⟩
  | cons turn rest ih =>
    obtain ⟨first, others⟩ := List.forall_mem_cons.mp leave
    exact ih (takeTurn_wellFormed wf first) others (serves_takeTurn wf first serves)

/-- The end of reservations makes a twin. -/
theorem twins_inactivateQueue (serves : Serves h s) :
    Twins h s ((Operation.inactivateQueue h).perform s) := by
  obtain ⟨isOpen, q, live, attentive⟩ := serves
  have ran : (Operation.inactivateQueue h).perform s = s.modifyQueue h (·.inactivate) := by
    rw [Operation.perform, inactivateQueue, bind_of_ok (queue_eq_ok.mpr ⟨isOpen, live, rfl⟩)]
    rfl
  rw [ran]
  have edits := edits_modifyQueue s h (·.inactivate)
  refine ⟨rfl, fun k apart => ?_, q, q.inactivate, live, ?_, rfl, attentive,
    .inl ?_⟩
  · rw [edits k, if_neg apart]
  · rw [edits h, if_pos rfl, live, Option.map_some]
  · rw [Queue.inactivate]
    split <;> rfl

/-- The end of reservations does not affect packets that are published.

In both runs the same turns are taken, of command processors and of an application that has to do
with signals; in one of them the reservations of a queue are ended at some point. Then the same is
done with packets in both: the same kernels are run on the same grids, the same completion signals
are counted down, and the same packets fail, in the same order. Afterwards all signals, all memory
and everything that was reported or told to the application is the same, all other queues are, and
the queue has the same slots and indices; it only does not accept reservations any more.

At first the processor of the queue must not have overlooked a packet. -/
theorem Hosted.inactivation_transparent (hosted : s.Hosted) (live : s.queues.get? h = some q)
    (attentive : Attentive q) {xs ys : List Turn} (leave : ∀ turn ∈ xs ++ ys, turn.LeavesQueues) :
    ∃ log t u, s.play (xs ++ ys) = (log, t) ∧
      s.play (xs ++ .application (.inactivateQueue h) :: ys) = (log, u) ∧
      { u with queues := t.queues } = t ∧
      (∀ k, k ≠ h → u.queues.get? k = t.queues.get? k) ∧
      ∃ q q', t.queues.get? h = some q ∧ u.queues.get? h = some q' ∧ q'.ring = q.ring ∧
        q'.isActive = false ∧ { q' with state := q.state, processor := q.processor } = q := by
  have wf := hosted.wellFormed.queues
  have isOpen : s.isOpen = true := hosted.isOpen_of_live live
  obtain ⟨before, after⟩ := List.forall_mem_append.mp leave
  obtain ⟨wf', serves⟩ := serves_play wf before ⟨isOpen, q, live, attentive⟩
  obtain ⟨same, twins⟩ := (twins_inactivateQueue serves).play wf' after
  obtain ⟨q, q', there, there', ended, -⟩ := twins.own
  refine ⟨_, _, _, s.play_append xs ys, (s.play_append xs _).trans ?_, ?_, twins.others, q, q',
    there, there', ended.alike.ring, ended.isActive, ?_⟩
  · exact congrArg (fun later => ((s.play xs).1 ++ later, _)) same
  · rw [← twins.rest]
  · rw [ended, Queue.inactivate]
    split <;> rfl

/-- The reservations of a queue are ended while a barrier holds its processor. When the signal that
the barrier depends on becomes 0, the barrier is completed all the same. -/
theorem inactivation_transparent_held : ∃ s t : Session, s.Hosted ∧
    s.play [.processor (.ofParts 0 1), .application (.inactivateQueue (.ofParts 0 1)),
      .application (.storeSignal (.ofParts 0 1) 0 .release), .processor (.ofParts 0 1),
      .processor (.ofParts 0 1)] = ([(.ofParts 0 1, .completed 0 none)], t) := by
  have opened : Ascending (.ofConfig .default) := .opened (c := .default) rfl
  have signalled := opened.step (.lasting (o := .createSignal 1 0 [])
    ⟨by decide, by decide, by decide⟩ ⟨nofun, nofun⟩)
  have queued := signalled.step (.lasting (o := .createQueue (.ofParts 1 1) 64 .multi ⟨0, 0, true⟩)
    ⟨by decide, by decide, by decide⟩ ⟨nofun, nofun⟩)
  have submitted := queued.step (.lasting (o := .barrierAnd (.ofParts 0 1) [.ofParts 0 1] none)
    ⟨by decide, by decide, by decide⟩ ⟨nofun, nofun⟩)
  have attentive : ∀ p : Processor, p = .start → p.state ≠ .idle := by
    rintro _ rfl
    exact nofun
  have leave : ∀ turn ∈ [Turn.processor (.ofParts 0 1)] ++
      [.application (.storeSignal (.ofParts 0 1) 0 .release), .processor (.ofParts 0 1),
        .processor (.ofParts 0 1)], turn.LeavesQueues := by
    simp [Turn.LeavesQueues]
  obtain ⟨log, t, u, plain, ended, -⟩ :=
    submitted.hosted.inactivation_transparent (h := .ofParts 0 1) rfl
      (fun p running idle => absurd idle (attentive p (Option.some.inj running).symm)) leave
  obtain rfl : [(.ofParts 0 1, .completed 0 none)] = log := congrArg Prod.fst plain
  exact ⟨_, u, submitted.hosted, ended⟩

/-- A barrier without dependencies is published on a queue of the graphics processor of the default
configuration, when the processor of the queue has just found nothing there. -/
def overlooked : Session :=
  let queued := (Operation.createQueue (.ofParts 1 1) 64 .multi ⟨0, 0, true⟩).perform
    (.ofConfig .default)
  let looked := (queued.takeTurn (.processor (.ofParts 0 1))).2
  (Operation.barrierAnd (.ofParts 0 1) [] none).perform looked

/-- A processor that has stopped does nothing any more. -/
theorem play_stopped (live : s.queues.get? k = some q) (running : q.processor = some p)
    (state : p.state = .stopped) (n : Nat) :
    s.play (List.replicate n (.processor k)) = ([], s) := by
  induction n with
  | zero => rfl
  | succ n ih =>
    rw [List.replicate_succ, play_cons, takeTurn_stopped live running state, ih]
    rfl

/-- The packet that was overlooked is completed if the queue goes on to accept reservations. If they
are ended before the next turn of the processor, it is not, however many turns the processor is
given. -/
theorem inactivation_loses : overlooked.Ascending ∧
    (∃ q, overlooked.queues.get? (.ofParts 0 1) = some q ∧ q.isActive = true ∧
      q.processor = some ⟨0, .idle⟩ ∧
      (q.ring.header q.ring.readIndex).type? = some .barrierAnd) ∧
    (overlooked.play (List.replicate 4 (.processor (.ofParts 0 1)))).1 =
      [(.ofParts 0 1, .completed 0 none)] ∧
    ∀ n, (overlooked.play (.application (.inactivateQueue (.ofParts 0 1)) ::
      List.replicate n (.processor (.ofParts 0 1)))).1 = [] := by
  have opened : Ascending (.ofConfig .default) := .opened (c := .default) rfl
  have queued := opened.step (.lasting (o := .createQueue (.ofParts 1 1) 64 .multi ⟨0, 0, true⟩)
    ⟨by decide, by decide, by decide⟩ ⟨nofun, nofun⟩)
  have looked := queued.step (.processor (h := .ofParts 0 1) rfl rfl)
  have published := looked.step (.lasting (o := .barrierAnd (.ofParts 0 1) [] none)
    ⟨by decide, by decide, by decide⟩ ⟨nofun, nofun⟩)
  refine ⟨published, ⟨_, rfl, rfl, rfl, rfl⟩, rfl, fun n => ?_⟩
  cases n with
  | zero => rfl
  | succ n =>
    let inactive := (overlooked.takeTurn (.application (.inactivateQueue (.ofParts 0 1)))).2
    have ended : ∃ q, (inactive.takeTurn (.processor (.ofParts 0 1))).2.queues.get? (.ofParts 0 1) =
        some q ∧ q.processor = some ⟨0, .stopped⟩ := ⟨_, rfl, rfl⟩
    obtain ⟨q, live, running⟩ := ended
    rw [List.replicate_succ, play_cons, play_cons, play_stopped live running rfl]
    rfl

end Session

end Accelerator
