import Accelerator.Proofs.Processor.Progress
import Accelerator.Proofs.Ring.Production
import Mathlib.Logic.Relation

/-!
# The order of processing

A hardware queue has many producers and one command processor. Whatever the application does in
the meantime, and in whatever order packets are published, the processor takes them in the order of
their indices: each packet before the read index was worked on once and completed once, and no other
packet was completed. Only the packet at the read index may have been worked on without being
complete.

If that packet fails, the queue accepts no more reservations, the application is told of the packet
once, and that is the end: nothing is run or completed any more, and the packet stays in its slot.

## What stands beside the session

The ledger and the log are no part of the session. The program keeps neither; they note what
producers and the processor have done, so that the two can be compared. A step that touches the
queue in any way but as a producer, as its processor, or by ending it, is no step of these runs.

## Main definitions

* `Record`, `Record.Step`: a session with what producers and the processor of a queue have done, and
  what may happen next.
* `Record.Stands`: the invariant.

## Main results

* `Record.Stands.step`, `Record.Stands.stays`: any step, and any run after a packet has failed.
* `Record.processes_in_order`: packets are processed once and in order, up to the first that fails.
-/

namespace Accelerator

open Session

variable {h : Handle} {s t : Session} {l m : Ledger} {q : Queue} {p : Processor} {r : Nat}

/-! ### Runs -/

/-- A session with the ledger of a queue's producers and the log of its processor. -/
structure Record where
  session : Session
  ledger : Ledger
  log : List Deed

namespace Record

/-- What may happen next, as it concerns one queue: a producer or the processor takes a step, the
application ends the queue, or something happens that leaves the queue alone. -/
inductive Step (h : Handle) : Record → Record → Prop where
  | produce {s t : Session} {l m : Ledger} {log : List Deed} {producer : Nat}
      (step : ProducerStep h producer s l t m) : Step h ⟨s, l, log⟩ ⟨t, m, log⟩
  | process {s t : Session} {l : Ledger} {log deeds : List Deed} {q : Queue} {p : Processor}
      (live : s.queues.get? h = some q) (running : q.processor = some p)
      (stepped : s.stepProcessor? q = some t) (move : s.Move q p deeds t) :
      Step h ⟨s, l, log⟩ ⟨t, l, log ++ deeds⟩
  | ends {s t : Session} {l : Ledger} {log : List Deed} {o : Operation}
      (ends : o = .inactivateQueue h ∨ o = .destroyQueue h ∨ o = .shutDown)
      (step : Session.Step (.application o) s t) : Step h ⟨s, l, log⟩ ⟨t, l, log⟩
  | elsewhere {s t : Session} {l : Ledger} {log : List Deed} {turn : Turn}
      (step : Session.Step turn s t) (spared : ¬ turn.Touches h) : Step h ⟨s, l, log⟩ ⟨t, l, log⟩
  | rehost {s : Session} {l : Ledger} {log : List Deed} (host : Host) :
      Step h ⟨s, l, log⟩ ⟨s.rehost host, l, log⟩

/-- What holds all along a run that starts with a new queue: the processor has completed the packets
before the read index, and the application has been told of the packet that failed, if any. -/
structure Stands (first : Queue) (start : Session) (c : Record) (q : Queue) (r : Nat)
    (told : List Notice) : Prop where
  wf : c.session.WellFormed
  held : c.session.heldQueue? first.handle = some q
  like : first.Like q
  host : q.agent.bind c.session.agents.get? ≠ none
  told_eq : c.session.told first.handle = start.told first.handle ++ told
  stands : q.Stands c.ledger r c.log told

variable {first q' : Queue} {start : Session} {c d : Record} {told : List Notice}

theorem host_of_sameAgents {agent : Option Handle} (same : s.SameAgents t)
    (host : agent.bind s.agents.get? ≠ none) : agent.bind t.agents.get? ≠ none := by
  cases agent with
  | none => exact host
  | some k =>
    intro gone
    change t.agents.get? k = none at gone
    have before := same k
    rw [gone, Option.map_none] at before
    exact host (Option.map_eq_none_iff.mp before.symm)

namespace Stands

/-- Nothing is done with packets. -/
theorem still {touched : Handle → Prop} (inv : c.Stands first start q r told)
    (changes : c.session.Changes touched d.session)
    (held : d.session.heldQueue? first.handle = some q') (like : q.Like q')
    (silent : d.session.told first.handle = c.session.told first.handle)
    (stands : q'.Stands d.ledger r d.log told) : d.Stands first start q' r told where
  wf := inv.wf.of_changes changes
  held := held
  like := inv.like.trans like
  host := host_of_sameAgents changes.agents (like.agent ▸ inv.host)
  told_eq := silent.trans inv.told_eq
  stands := stands

/-- A step of a producer. -/
theorem produce {log : List Deed} {producer : Nat}
    (inv : Stands first start ⟨s, l, log⟩ q r told)
    (step : ProducerStep first.handle producer s l t m) :
    ∃ q', Stands first start ⟨t, m, log⟩ q' r told := by
  obtain ⟨q', f, effect⟩ := step.effect
  obtain rfl : q' = q := Option.some.inj (effect.held.symm.trans inv.held)
  exact ⟨q'.modifyRing f, inv.still effect.changes effect.heldQueue?_eq ⟨rfl, rfl, rfl⟩
    (told_congr effect.notices _)
    (inv.stands.modifyRing (effect.tracks r inv.stands.tracks) fun _ _ => step.stage_published)⟩

/-- A step that leaves the queue alone. -/
theorem elsewhere {log : List Deed} {turn : Turn} (inv : Stands first start ⟨s, l, log⟩ q r told)
    (step : Session.Step turn s t) (spared : ¬ turn.Touches first.handle) :
    Stands first start ⟨t, l, log⟩ q r told := by
  have changes := step.changes inv.wf.queues
  have same := changes.heldQueue?_eq inv.wf.queues inv.held spared
  exact inv.still changes same.2 ⟨rfl, rfl, rfl⟩ (changes.told _ spared) inv.stands

/-- Another host. -/
theorem rehost {log : List Deed} (inv : Stands first start ⟨s, l, log⟩ q r told) (host : Host) :
    Stands first start ⟨s.rehost host, l, log⟩ q r told :=
  ⟨⟨inv.wf.queues, inv.wf.agents⟩, inv.held, inv.like, inv.host, inv.told_eq, inv.stands⟩

/-- The end of the queue, or of all queues. -/
theorem ends {log : List Deed} {o : Operation} (inv : Stands first start ⟨s, l, log⟩ q r told)
    (ends : o = .inactivateQueue first.handle ∨ o = .destroyQueue first.handle ∨ o = .shutDown)
    (step : Session.Step (.application o) s t) :
    ∃ q', Stands first start ⟨t, l, log⟩ q' r told := by
  have changes := step.changes inv.wf.queues
  cases step with
  | application room ready =>
    have destroyed : s.queues.get? first.handle = some q →
        o = .destroyQueue first.handle ∨ o = .shutDown → q.destroy.Stands l r log told :=
      fun live gone => inv.stands.destroy fun index completion finishing =>
        ready ⟨first.handle, q, index, completion, live, finishing, gone⟩
    rcases ends with rfl | rfl | rfl
    · obtain ⟨notices, q', held, rfl | rfl⟩ := held_inactivateQueue inv.held
      · exact ⟨q', inv.still changes held ⟨rfl, rfl, rfl⟩ (told_congr notices _) inv.stands⟩
      · exact ⟨_, inv.still changes held q.like_inactivate (told_congr notices _)
          inv.stands.inactivate⟩
    · obtain ⟨notices, q', held, rfl | ⟨live, rfl⟩⟩ := held_destroyQueue inv.wf.queues inv.held
      · exact ⟨q', inv.still changes held ⟨rfl, rfl, rfl⟩ (told_congr notices _) inv.stands⟩
      · exact ⟨_, inv.still changes held ⟨rfl, rfl, rfl⟩ (told_congr notices _)
          (destroyed live (.inl rfl))⟩
    · obtain ⟨notices, q', held, rfl | ⟨live, rfl⟩⟩ := held_shutDown inv.wf.queues inv.held
      · exact ⟨q', inv.still changes held ⟨rfl, rfl, rfl⟩ (told_congr notices _) inv.stands⟩
      · exact ⟨_, inv.still changes held ⟨rfl, rfl, rfl⟩ (told_congr notices _)
          (destroyed live (.inr rfl))⟩

/-- A step of the processor. -/
theorem process {log deeds : List Deed} (inv : Stands first start ⟨s, l, log⟩ q r told)
    (live : s.queues.get? first.handle = some q) (running : q.processor = some p)
    (move : s.Move q p deeds t) :
    ∃ q' r' told', Stands first start ⟨t, l, log ++ deeds⟩ q' r' told' := by
  have named := inv.like.handle
  obtain ⟨q', r', new, after, like, silent, stands⟩ :=
    inv.stands.moved (named ▸ live) inv.host running move
  refine ⟨q', r', told ++ new, inv.wf.of_changes move.changes,
    Directory.held?_of_get? (named ▸ after), inv.like.trans like,
    host_of_sameAgents move.changes.agents (like.agent ▸ inv.host), ?_, stands⟩
  rw [← List.append_assoc, ← inv.told_eq, ← named]
  exact silent

/-- Any step. -/
theorem step (inv : c.Stands first start q r told) (step : Step first.handle c d) :
    ∃ q' r' told', d.Stands first start q' r' told' := by
  cases step with
  | produce step =>
    obtain ⟨q', stands⟩ := inv.produce step
    exact ⟨q', r, told, stands⟩
  | process live running stepped move =>
    obtain rfl := Directory.eq_of_held? inv.held live
    exact inv.process live running move
  | ends ended step =>
    obtain ⟨q', stands⟩ := inv.ends ended step
    exact ⟨q', r, told, stands⟩
  | elsewhere step spared => exact ⟨q, r, told, inv.elsewhere step spared⟩
  | rehost host => exact ⟨q, r, told, inv.rehost host⟩

/-- Any run. -/
theorem run (inv : c.Stands first start q r told)
    (run : Relation.ReflTransGen (Step first.handle) c d) :
    ∃ q' r' told', d.Stands first start q' r' told' := by
  induction run with
  | refl => exact ⟨q, r, told, inv⟩
  | tail _ step before =>
    obtain ⟨_, _, _, inv⟩ := before
    exact inv.step step

/-- The packet at the read index lies in its slot once it was published. -/
theorem read_eq (inv : c.Stands first start q r told) {parcel : Parcel}
    (published : c.ledger.stage r = .published parcel) : q.ring.read (.ofNat r) = parcel.slot := by
  have tracks := inv.stands.tracks
  have head := tracks.shows_head
  rw [published] at head
  rw [← head.1, tracks.readIndex_eq]

/-- A new queue. -/
theorem of_createQueue {agentHandle : Handle} {size : UInt32} {type : QueueType}
    {options : QueueOptions} {a : Agent} (reachable : s.Reachable) (room : s.HasRoom)
    (host : s.agents.get? agentHandle = some a)
    (runs : a.info.features.contains .kernelDispatch = true)
    (made : createQueue agentHandle size type options s = (.ok q, t)) :
    Stands q t ⟨t, .fresh, []⟩ q 0 [] ∧ q.notifies = options.notifies := by
  have wf := reachable.wellFormed
  have changes := changes_createQueue wf.queues room.2.1 agentHandle size type options
  rw [made] at changes
  obtain ⟨sized, ring, -, -, live, notifies, b, same, agent, processor⟩ :=
    createQueue_eq_ok wf room made
  obtain rfl : a = b := Option.some.inj (host.symm.trans same)
  rw [if_pos runs] at processor
  refine ⟨⟨wf.of_changes changes, Directory.held?_of_get? live, ⟨rfl, rfl, rfl⟩,
    host_of_sameAgents changes.agents ?_, (List.append_nil _).symm, ?_⟩, notifies⟩
  · rw [agent]
    change s.agents.get? agentHandle ≠ none
    rw [host]
    exact Option.some_ne_none a
  · refine ⟨?_, fun p running => ?_, [], [], rfl, Ledger.completed_zero _,
      .waiting fun p running => ?_⟩
    · rw [ring]
      exact Ledger.tracks_ofSize sized
    · cases processor.symm.trans running
      rfl
    · cases processor.symm.trans running
      trivial

/-- Once a packet has failed, nothing more is done with packets. -/
theorem stays (inv : c.Stands first start q r told) {index : UInt64} {cause : Fault}
    (listed : .failed index cause ∈ c.log) (run : Relation.ReflTransGen (Step first.handle) c d) :
    d.log = c.log ∧ d.ledger.Extends c.ledger ∧ ∃ q', d.Stands first start q' r told := by
  induction run with
  | refl => exact ⟨rfl, fun _ _ => id, q, inv⟩
  | tail _ step before =>
    obtain ⟨log, more, middle, inv⟩ := before
    rw [← log] at listed ⊢
    cases step with
    | produce step =>
      exact ⟨rfl, fun _ _ published => step.stage_published (more _ _ published),
        inv.produce step⟩
    | process live running stepped move =>
      obtain rfl := Directory.eq_of_held? inv.held live
      obtain ⟨-, -, -, stopped, -⟩ := inv.stands.of_failed listed
      exact absurd (stopped _ running) move.not_stopped
    | ends ended step => exact ⟨rfl, more, inv.ends ended step⟩
    | elsewhere step spared => exact ⟨rfl, more, middle, inv.elsewhere step spared⟩
    | rehost host => exact ⟨rfl, more, middle, inv.rehost host⟩

end Stands

/-- Packets are processed once and in the order of their indices, up to the first that fails.

Those before the read index have been worked on and completed one after another, which counted the
completion signal of each down by 1 if it has one; their slots were given back. Nothing was done
with packets after the read index. If the packet at the read index has failed, the queue accepts no
reservations, the application was told once, and whatever happens afterwards, no other packet is
worked on or completed, nothing more is told, and the packet stays in its slot. -/
theorem processes_in_order {s₀ s₁ : Session} {agentHandle : Handle} {size : UInt32}
    {type : QueueType} {options : QueueOptions} {a : Agent} {log : List Deed}
    (reachable : s₀.Reachable) (room : s₀.HasRoom)
    (host : s₀.agents.get? agentHandle = some a)
    (runs : a.info.features.contains .kernelDispatch = true)
    (made : createQueue agentHandle size type options s₀ = (.ok first, s₁))
    (run : Relation.ReflTransGen (Step first.handle) ⟨s₁, .fresh, []⟩ ⟨s, l, log⟩) :
    ∃ q r told, s.heldQueue? first.handle = some q ∧ q.ring.readIndex.toNat = r ∧
      s.told first.handle = s₁.told first.handle ++ told ∧
      (∃ done tail, log = done ++ tail ∧ l.Completed r done ∧ q.Phase l r tail told) ∧
      (∀ deed ∈ log, deed.index.toNat ≤ r) ∧
      (∀ index signal, .completed index signal ∈ log → index.toNat < r) ∧
      (∀ i < r, (∀ j, r ≤ j → q.ring.place (.ofNat j) = q.ring.place (.ofNat i) →
        ¬ (l.stage j).IsPublished) → (q.ring.header (.ofNat i)).isUnpublished = true) ∧
      (∀ t, s.stepProcessor? q = some t → ∃ p deeds, q.processor = some p ∧ s.Move q p deeds t) ∧
      (∀ p deeds t, s.Move q p deeds t →
        { t with queues := s.queues, notices := s.notices } = deeds.foldl Deed.act s) ∧
      ∀ index cause, .failed index cause ∈ log →
        index.toNat = r ∧ q.isActive = false ∧
        told = (if options.notifies then [⟨first.handle, cause⟩] else []) ∧
        ∃ parcel, l.stage r = .published parcel ∧ q.ring.read (.ofNat r) = parcel.slot ∧
          ∀ d, Relation.ReflTransGen (Step first.handle) ⟨s, l, log⟩ d →
            d.log = log ∧ d.session.told first.handle = s.told first.handle ∧
            ∃ q', d.session.heldQueue? first.handle = some q' ∧ q'.isActive = false ∧
              q'.ring.readIndex.toNat = r ∧ q'.ring.read (.ofNat r) = parcel.slot := by
  obtain ⟨new, notifies⟩ := Stands.of_createQueue reachable room host runs made
  obtain ⟨q, r, told, inv⟩ := new.run run
  obtain ⟨tracks, -, done, tail, same, completed, phase⟩ := inv.stands
  have read := tracks.read
  have fits : r < 2 ^ 64 := read ▸ q.ring.readIndex.toNat_lt
  have toNat : (UInt64.ofNat r).toNat = r := UInt64.toNat_ofNat_of_lt' fits
  have parts : ∀ deed ∈ log, deed ∈ done ∨ deed ∈ tail := fun deed listed =>
    List.mem_append.mp (same ▸ listed)
  refine ⟨q, r, told, inv.held, read, inv.told_eq, ⟨done, tail, same, completed, phase⟩,
    fun deed listed => ?_, fun index signal listed => ?_, fun i before free => ?_,
    fun t stepped => Move.exists_of_stepProcessor? stepped, fun p deeds t move => move.acts,
    fun index cause listed => ?_⟩
  · rcases parts deed listed with before | last
    · exact (completed.index_lt fits before).le
    · rw [(phase.index_eq last).1, toNat]
  · rcases parts _ listed with before | last
    · exact completed.index_lt fits before
    · exact absurd rfl ((phase.index_eq last).2 index signal)
  · exact tracks.retired before free
  · obtain ⟨rfl, published, ended, -, rfl⟩ := inv.stands.of_failed listed
    cases stage : l.stage r with
    | vacant | filled => rw [stage] at published; cases published
    | published parcel =>
      refine ⟨toNat, ended, ?_, parcel, rfl, inv.read_eq stage, fun d later => ?_⟩
      · rw [inv.like.handle, inv.like.notifies, notifies]
      · obtain ⟨log, more, q', still⟩ := inv.stays listed later
        obtain ⟨-, -, ended, -, -⟩ := still.stands.of_failed (by rwa [log])
        exact ⟨log, still.told_eq.trans inv.told_eq.symm, q', still.held, ended,
          still.stands.tracks.read, still.read_eq (more _ _ stage)⟩

/-- A packet that no processor supports is refused: the queue has ended, and the application was
told. -/
theorem processes_unsupported : ∃ s₁ s l,
    Relation.ReflTransGen (Step (.ofParts 0 1)) ⟨s₁, .fresh, []⟩
      ⟨s, l, [.failed 0 (.packet 0 (.unsupportedType .agentDispatch))]⟩ ∧
    s.told (.ofParts 0 1) = s₁.told (.ofParts 0 1) ++
      [⟨.ofParts 0 1, .packet 0 (.unsupportedType .agentDispatch)⟩] ∧
    ∃ q, s.heldQueue? (.ofParts 0 1) = some q ∧ q.isActive = false := by
  have opened : Reachable (.ofConfig .default) := .opened (c := .default) rfl
  have room : HasRoom (.ofConfig .default) := ⟨by decide, by decide, by decide⟩
  have new : Relation.ReflTransGen (Step (.ofParts 0 1)) _ _ := .refl (a := ⟨(createQueue
    (.ofParts 1 1) 64 .multi ⟨0, 0, true⟩ (.ofConfig .default)).2, .fresh, []⟩)
  have reserved := new.tail (.produce (.reserve (by decide) (by decide)
    (rfl : addWriteIndex (.ofParts 0 1) 1 .relaxed _ = (.ok 0, _)) :
      ProducerStep (.ofParts 0 1) 0 _ _ _ _))
  have observed := reserved.tail
    (.produce (.observe (a := ⟨0, 0, 1⟩) (.head _) rfl rfl (by decide)))
  have filled := observed.tail (.produce (.fill (a := ⟨0, 0, 1⟩) (.head _) rfl
    (by constructor <;> decide) (by exact id)
    (rfl : writePacket (.ofParts 0 1) 0 .unpublished _ = (.ok (), _))))
  have published := filled.tail (.produce (.publish (a := ⟨0, 0, 1⟩) (.head _) rfl
    (by constructor <;> decide) rfl (by decide)
    (rfl : Session.publish (.ofParts 0 1) 0 (.ofType .agentDispatch) 0 _ = (.ok (), _))))
  have refused := published.tail (.process (p := .start) rfl rfl rfl
    (.refuse rfl (by decide) rfl fun _ launches => absurd launches.type (by decide)))
  obtain ⟨q, r, told, held, -, same, -, -, -, -, -, -, failing⟩ :=
    processes_in_order opened room
      (rfl : (ofConfig .default).agents.get? (.ofParts 1 1) = some (.ofInfo _ Config.gpu))
      rfl (rfl : createQueue (.ofParts 1 1) 64 .multi ⟨0, 0, true⟩ _ = (.ok _, _)) refused
  obtain ⟨-, ended, rfl, -⟩ := failing _ _ (List.mem_singleton_self _)
  exact ⟨_, _, _, refused, same, q, held, ended⟩

end Record

end Accelerator
