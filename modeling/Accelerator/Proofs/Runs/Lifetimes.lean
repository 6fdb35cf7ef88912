import Accelerator.Proofs.Runs.Signals
import Mathlib.Logic.Relation

/-!
# The life of a queue

A queue is active, then inactive, then destroyed. It may skip a stage, and it never goes back:
whatever the application or a command processor does, a queue only gets older. From the first
moment that it is not active its write index is frozen, since every action that sets a write index
asks for an active queue first.

A queue is destroyed exactly if its handle does not name it any more. Whoever held on to it still
sees it, as it was in the end.

## Actions and calls

All of this is about actions that are taken as a whole, check and change together. Callers on
several threads may be overtaken between the two; what is left of these results for them is told in
`Runs.Underway`, which rests on the lemmas here.

## Main definitions

* `QueueState.age`, `Queue.Ages`: the stages in order, and a queue that got older.
* `Session.Next`, `Session.Later`: what happens next, and what runs lead to from a session.
* `Session.QueuesAge`: all queues got older, or they are new.
* `Session.Coherent`: exactly what is destroyed is not live any more.

## Main results

* `Session.Step.queuesAge`: whatever happens next, all queues get older.
* `Session.Reachable.coherent`: exactly the destroyed queues are not live any more.
-/

namespace Accelerator

/-! ### Stages -/

/-- The stages of a queue's life in order. -/
def QueueState.age : QueueState → Nat
  | active => 0
  | inactive => 1
  | destroyed => 2

namespace Queue

variable {q q' q'' : Queue}

/-- A queue got older: it did not go back to an earlier stage of its life, its write index stayed
unless it was active, and it has as many slots as before. -/
structure Ages (q q' : Queue) : Prop where
  forward : q.state.age ≤ q'.state.age
  frozen : q.isActive = false → q'.ring.writeIndex = q.ring.writeIndex
  size : q'.ring.slots.size = q.ring.slots.size

theorem isActive_eq_false_iff : q.isActive = false ↔ 0 < q.state.age := by
  rw [isActive]
  cases q.state <;> decide

theorem Ages.refl (q : Queue) : q.Ages q :=
  ⟨Nat.le_refl _, fun _ => rfl, rfl⟩

theorem Ages.isActive (ages : q.Ages q') (ended : q.isActive = false) : q'.isActive = false := by
  rw [isActive_eq_false_iff] at ended ⊢
  have forward := ages.forward
  omega

theorem Ages.trans (first : q.Ages q') (second : q'.Ages q'') : q.Ages q'' where
  forward := first.forward.trans second.forward
  frozen ended := (second.frozen (first.isActive ended)).trans (first.frozen ended)
  size := second.size.trans first.size

/-- The end of reservations takes an active queue to the next stage, and leaves all others. -/
theorem ages_inactivate (q : Queue) :
    q.Ages q.inactivate ∧ (q.inactivate.state = .destroyed → q.state = .destroyed) := by
  rw [inactivate]
  split
  case isTrue active =>
    have youngest : q.state = .active := by simpa [isActive] using active
    refine ⟨⟨?_, fun _ => rfl, rfl⟩, fun ended => by cases ended⟩
    rw [youngest]
    exact Nat.zero_le _
  case isFalse => exact ⟨.refl q, fun ended => ended⟩

theorem ages_destroy (q : Queue) : q.Ages q.destroy where
  forward := by
    show q.state.age ≤ 2
    cases q.state <;> decide
  frozen _ := rfl
  size := rfl

end Queue

namespace Session

variable {s t u : Session} {touched : Handle → Prop} {h : Handle} {q q' : Queue} {p : Processor}

/-! ### Runs -/

/-- One thing happens: the host changes, or somebody takes his turn. -/
inductive Next : Session → Session → Prop where
  | rehost (s : Session) (host : Host) : Next s (s.rehost host)
  | step {turn : Turn} {s t : Session} (step : Step turn s t) : Next s t

/-- What runs lead to from a session, whatever the host does. -/
def Later (s t : Session) : Prop :=
  Relation.ReflTransGen Next s t

theorem Next.wellFormed (next : s.Next t) (wf : s.WellFormed) : t.WellFormed := by
  cases next with
  | rehost => exact ⟨wf.queues, wf.agents⟩
  | step step => exact wf.of_changes (step.changes wf.queues)

/-! ### All queues get older -/

/-- A queue that somebody held on to is destroyed exactly if it is not live any more, and its ring
has a power of two of slots. -/
structure Coherent (s : Session) (h : Handle) (q : Queue) : Prop where
  destroyed : q.state = .destroyed ↔ s.queues.get? h = none
  sized : q.ring.IsSized

/-- The queue of a handle got older, and if it is not live it stayed as it was; or it is new, and
live. -/
structure QueueAges (s t : Session) (h : Handle) : Prop where
  held : ∀ q, s.heldQueue? h = some q → ∃ q', t.heldQueue? h = some q' ∧ q.Ages q' ∧
    (s.queues.get? h = none → t.queues.get? h = none ∧ q' = q) ∧
    (s.Coherent h q → t.Coherent h q')
  new : ∀ q', t.heldQueue? h = some q' → s.heldQueue? h = none → t.Coherent h q'

/-- All queues of a session got older. -/
def QueuesAge (s t : Session) : Prop :=
  ∀ h, s.QueueAges t h

namespace QueueAges

/-- A queue that stays as it is. -/
theorem of_same (live : t.queues.get? h = s.queues.get? h)
    (held : t.heldQueue? h = s.heldQueue? h) : s.QueueAges t h where
  held q found := by
    refine ⟨q, held.trans found, .refl q, fun gone => ⟨live.trans gone, rfl⟩, fun coherent => ?_⟩
    exact ⟨by rw [live]; exact coherent.destroyed, coherent.sized⟩
  new q' found missing := by
    cases found.symm.trans (held.trans missing)

/-- A live queue that is changed in place. -/
theorem of_live (before : s.queues.get? h = some q) (after : t.queues.get? h = some q')
    (ages : q.Ages q') (lasts : q'.state = .destroyed → q.state = .destroyed) :
    s.QueueAges t h where
  held q₀ found := by
    obtain rfl := Directory.eq_of_held? found before
    refine ⟨q', Directory.held?_of_get? after, ages, fun gone => ?_, fun coherent => ?_⟩
    · cases before.symm.trans gone
    · refine ⟨⟨fun ended => ?_, fun gone => ?_⟩, coherent.sized.congr ages.size⟩
      · cases before.symm.trans (coherent.destroyed.mp (lasts ended))
      · cases after.symm.trans gone
  new q' _ missing := by
    cases missing.symm.trans (Directory.held?_of_get? before)

/-- A live queue that is taken out, and destroyed by that. -/
theorem of_destroyed (before : s.queues.get? h = some q) (gone : t.queues.get? h = none)
    (after : t.heldQueue? h = some q.destroy) : s.QueueAges t h where
  held q₀ found := by
    obtain rfl := Directory.eq_of_held? found before
    refine ⟨q.destroy, after, q.ages_destroy, fun missing => ?_, fun coherent => ?_⟩
    · cases before.symm.trans missing
    · exact ⟨⟨fun _ => gone, fun _ => rfl⟩, coherent.sized⟩
  new q' _ missing := by
    cases missing.symm.trans (Directory.held?_of_get? before)

theorem trans (first : s.QueueAges t h) (second : t.QueueAges u h) : s.QueueAges u h where
  held q held := by
    obtain ⟨q', held', ages, gone, coherent⟩ := first.held q held
    obtain ⟨q'', held'', ages', gone', coherent'⟩ := second.held q' held'
    refine ⟨q'', held'', ages.trans ages', fun missing => ?_, coherent' ∘ coherent⟩
    obtain ⟨missing', rfl⟩ := gone missing
    exact gone' missing'
  new q'' held missing := by
    cases between : t.heldQueue? h with
    | none => exact second.new q'' held between
    | some q' =>
      obtain ⟨_, held', -, -, coherent⟩ := second.held q' between
      cases held.symm.trans held'
      exact coherent (first.new q' between missing)

end QueueAges

theorem QueuesAge.of_eq (same : t.queues = s.queues) : s.QueuesAge t :=
  fun h => .of_same (congrArg (·.get? h) same) (congrArg (·.held? h) same)

theorem QueuesAge.trans (first : s.QueuesAge t) (second : t.QueuesAge u) : s.QueuesAge u :=
  fun h => (first h).trans (second h)

instance : IsPreorder Session QueuesAge where
  refl _ := .of_eq rfl
  trans _ _ _ := .trans

/-- A live queue is changed in place. -/
theorem queuesAge_modifyQueue (s : Session) (h : Handle) {f : Queue → Queue}
    (ages : ∀ q, s.queues.get? h = some q →
      q.Ages (f q) ∧ ((f q).state = .destroyed → q.state = .destroyed)) :
    s.QueuesAge (s.modifyQueue h f) := by
  intro k
  have shown := Directory.get?_modify s.queues h k f
  by_cases here : k = h
  · subst here
    rw [if_pos rfl] at shown
    cases live : s.queues.get? k with
    | none =>
      rw [live] at shown
      refine .of_same (shown.trans live.symm) ?_
      exact congrArg (·.or (s.queues.retired.lookup k)) (shown.trans live.symm)
    | some q =>
      rw [live] at shown
      exact .of_live live shown (ages q live).1 (ages q live).2
  · rw [if_neg here] at shown
    exact .of_same shown (congrArg (·.or (s.queues.retired.lookup k)) shown)

theorem queuesAge_inactivate (s : Session) (h : Handle) :
    s.QueuesAge (s.modifyQueue h (·.inactivate)) :=
  s.queuesAge_modifyQueue h fun q _ => q.ages_inactivate

/-- The ring of a queue is changed, but for its write index unless the queue is active. -/
theorem queuesAge_modifyRing (s : Session) (h : Handle) {f : PacketRing → PacketRing}
    (sized : ∀ r, (f r).slots.size = r.slots.size)
    (guarded : ∀ q, s.queues.get? h = some q → q.isActive = false →
      (f q.ring).writeIndex = q.ring.writeIndex) :
    s.QueuesAge (s.modifyQueue h (·.modifyRing f)) :=
  s.queuesAge_modifyQueue h fun q live =>
    ⟨⟨Nat.le_refl _, guarded q live, sized q.ring⟩, id⟩

theorem Routine.queuesAge (routine : s.Routine touched t) : s.QueuesAge t := by
  induction routine with
  | refl s => exact refl_of QueuesAge s
  | trans _ _ first second => exact first.trans second
  | setSignal | dropSignal | fill | tick => exact .of_eq rfl
  | ring _ s f sized guarded => exact s.queuesAge_modifyRing _ sized guarded
  | inactivate _ s => exact s.queuesAge_inactivate _

/-- A queue that was just made. -/
theorem queuesAge_insert (room : s.HasRoom) (wf : s.WellFormed) (active : q.state = .active)
    (sized : q.ring.IsSized) (same : t.queues = s.queues.insert q) : s.QueuesAge t := by
  intro k
  have live := Directory.get?_insert wf.queues room.2.1 q k
  have held := Directory.held?_insert wf.queues room.2.1 q k
  rw [← same] at live held
  by_cases new : k = s.queues.nextHandle
  · refine ⟨fun q₀ found => ?_, fun q' found _ => ?_⟩
    · exact absurd new (wf.queues.ne_nextHandle room.2.1 found)
    rw [if_pos new] at live held
    obtain rfl := Option.some.inj (held.symm.trans found)
    refine ⟨⟨fun ended => ?_, fun gone => ?_⟩, sized⟩
    · cases active.symm.trans ended
    · cases live.symm.trans gone
  · rw [if_neg new] at live held
    exact .of_same live held

theorem queuesAge_destroyQueue (wf : s.WellFormed) {queues : Directory Queue}
    (removed : s.queues.remove h Queue.destroy = some (q, queues)) :
    s.QueuesAge ({ s with queues }.tearDown q) := by
  intro k
  have same := (sameQueues_tearDown { s with queues } q).queues
  have live := (congrArg (·.get? k) same).trans (Directory.get?_remove wf.queues removed k)
  have held := (congrArg (·.held? k) same).trans (Directory.held?_remove wf.queues removed k)
  obtain ⟨before, -, -, there, rfl, -⟩ := Directory.remove_eq_some removed
  by_cases here : k = h
  · subst here
    exact .of_destroyed there (live.trans (if_pos rfl)) (held.trans (if_pos rfl))
  · exact .of_same (live.trans (if_neg here)) (held.trans (if_neg here))

theorem queuesAge_ended (wf : s.WellFormed) : s.QueuesAge s.ended := by
  intro k
  have gone := (congrArg (·.get? k) s.queues_ended).trans (Directory.get?_drain ..)
  have held := congrArg (·.held? k) s.queues_ended
  cases live : s.queues.get? k with
  | none =>
    exact .of_same (gone.trans live.symm)
      (held.trans (Directory.held?_drain_of_gone wf.queues live _))
  | some q =>
    exact .of_destroyed live gone (held.trans (Directory.held?_drain_of_live wf.queues live _))

theorem Effect.queuesAge (effect : s.Effect t) (room : s.HasRoom) (wf : s.WellFormed) :
    s.QueuesAge t := by
  cases effect with
  | routine routine => exact routine.queuesAge
  | createSignal | allocate | free | assign | serve | register => exact .of_eq rfl
  | createQueue placement =>
    exact queuesAge_insert room wf rfl (PacketRing.isSized_ofSize placement.sized) rfl
  | @withdrawQueue _ _ a _ host _ _ q queues placement made removed =>
    have named : q.handle = s.queues.nextHandle := congrArg Queue.handle made
    have placed : s.QueuesAge (s.withHardwareQueue a q host) :=
      queuesAge_insert room wf (congrArg Queue.state made)
        (made ▸ PacketRing.isSized_ofSize placement.sized) rfl
    exact placed.trans (queuesAge_destroyQueue (wf.withHardwareQueue room a host named) removed)
  | createSoftQueue _ _ _ _ _ _ sized active => exact queuesAge_insert room wf active sized rfl
  | destroyQueue removed => exact queuesAge_destroyQueue wf removed
  | shutDown => exact queuesAge_ended wf

/-! ### Command processors -/

theorem queuesAge_setProcessor (s : Session) (q : Queue) (p : Processor) :
    s.QueuesAge (s.setProcessor q p) :=
  s.queuesAge_modifyQueue q.handle fun _ _ => ⟨⟨Nat.le_refl _, fun _ => rfl, rfl⟩, id⟩

theorem queuesAge_failPacket (s : Session) (q : Queue) (p : Processor) (cause : Fault) :
    s.QueuesAge (s.failPacket q p cause) :=
  ((s.queuesAge_inactivate q.handle).trans (queuesAge_setProcessor _ q _)).trans
    (.of_eq (queues_failPacket s q p cause))

theorem queuesAge_advance (s : Session) (q : Queue) (p : Processor) :
    s.QueuesAge (s.advance q p) := by
  have retired : s.QueuesAge _ := s.queuesAge_modifyRing q.handle
    (f := (·.retire p.index)) (fun r => r.size_modifySlot p.index _) fun _ _ _ => rfl
  rw [advance]
  split
  · exact retired.trans (queuesAge_setProcessor _ q _)
  case h_2 next _ =>
    have moved := retired.trans (queuesAge_modifyRing _ q.handle (f := (·.setReadIndex next))
      (fun _ => rfl) fun _ _ _ => rfl)
    exact moved.trans (queuesAge_setProcessor _ q _)

/-- A command processor ends its queue at most. It never sets a write index. -/
theorem Move.queuesAge {deeds : List Deed} (move : s.Move q p deeds t) : s.QueuesAge t := by
  cases move with
  | look | resume | leave | skip | hold | crash | pass => exact s.queuesAge_setProcessor q _
  | run =>
    exact QueuesAge.trans (.of_eq (sameQueues_runLaunch s _).queues) (queuesAge_setProcessor _ q _)
  | panic =>
    exact QueuesAge.trans (.of_eq (sameQueues_runLaunch s _).queues) (queuesAge_failPacket _ q p _)
  | refuse | give | miss => exact s.queuesAge_failPacket q p _
  | complete =>
    exact QueuesAge.trans (.of_eq (sameQueues_countDown s _).queues) (queuesAge_advance _ q p)

/-! ### Steps and runs -/

/-- Whatever happens next in a session, all queues get older. -/
theorem Step.queuesAge {turn : Turn} (step : Step turn s t) (wf : s.WellFormed) :
    s.QueuesAge t := by
  cases step with
  | @application _ o room =>
    rcases reloads_or_effect room wf.queues o with reloads | effect
    · exact .of_eq reloads.sameQueues.queues
    · exact effect.queuesAge room wf
  | processor live stepped =>
    obtain ⟨p, deeds, -, move⟩ := Move.exists_of_stepProcessor? stepped
    exact move.queuesAge

theorem Next.queuesAge (next : s.Next t) (wf : s.WellFormed) : s.QueuesAge t := by
  cases next with
  | rehost => exact .of_eq rfl
  | step step => exact step.queuesAge wf

/-- Coherent queues stay so, and new ones are. -/
theorem QueueAges.coherent (ages : s.QueueAges t h) (held : t.heldQueue? h = some q)
    (before : ∀ q, s.heldQueue? h = some q → s.Coherent h q) : t.Coherent h q := by
  cases held₀ : s.heldQueue? h with
  | none => exact ages.new q held held₀
  | some q₀ =>
    obtain ⟨_, held', -, -, coherent⟩ := ages.held q₀ held₀
    cases held.symm.trans held'
    exact coherent (before q₀ held₀)

/-- Along a run, exactly the destroyed queues are not live any more. -/
theorem Reachable.coherent (reachable : s.Reachable) (held : s.heldQueue? h = some q) :
    s.Coherent h q := by
  induction reachable generalizing q with
  | @opened c s opened =>
    obtain rfl := openConfig_eq_ok opened
    cases held.symm.trans (Directory.held?_empty h)
  | rehost before host ih =>
    obtain ⟨destroyed, sized⟩ := ih held
    exact ⟨destroyed, sized⟩
  | step before step ih =>
    exact (step.queuesAge before.wellFormed h).coherent held fun _ held => ih held

theorem Hosted.coherent (hosted : s.Hosted) (held : s.heldQueue? h = some q) : s.Coherent h q :=
  hosted.reachable.coherent held

end Session

end Accelerator
