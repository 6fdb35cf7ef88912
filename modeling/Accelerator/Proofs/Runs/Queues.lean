import Accelerator.Proofs.Runs.Routine

/-!
# What actions do to queues

An action on a queue may change that queue, and no other: the queues of other handles stay as they
are, and so does what the application has been told of them. The same is true of making a queue,
which touches no queue at all. Only shutting down touches all of them.

## The touched queues as a parameter

`Session.Changes` has the handles that may be touched as a parameter. So one relation serves actions
on one queue, on none, and on all, and a chain of actions touches what its parts touch. It includes
what the application was told, and the agents, because whoever follows one queue through a run has
to know that these stay as well.

## Main definitions

* `Session.told`: what the application has been told of a queue.
* `Session.Changes`: one session comes from another, and only certain queues were touched.

## Main results

* `Session.Changes.heldQueue?_eq`: queues that were not touched stay as they are.
* `Session.keeps_submit` and its like: which queues an action touches.
-/

namespace Accelerator

namespace Session

open Accelerator.Action

variable {s t : Session} {touched : Handle → Prop} {h : Handle}

/-- What the application has been told of packets that failed in a queue. -/
def told (s : Session) (h : Handle) : List Notice :=
  s.notices.filter (·.queue = h)

theorem told_congr (same : t.notices = s.notices) (h : Handle) : t.told h = s.told h := by
  rw [told, same, told]

/-- A session comes from another, and only certain queues were touched. -/
structure Changes (touched : Handle → Prop) (s t : Session) : Prop where
  queues : s.queues.Evolves Queue.handle touched t.queues
  told : ∀ h, ¬ touched h → t.told h = s.told h
  isOpen : t.isOpen = s.isOpen ∨ ∀ h, touched h
  agents : s.SameAgents t

instance (touched : Handle → Prop) : IsPreorder Session (Changes touched) where
  refl s := ⟨.refl _, fun _ _ => rfl, .inl rfl, fun _ => rfl⟩
  trans _ _ _ first second :=
    { queues := first.queues.trans second.queues
      told := fun h spared => (second.told h spared).trans (first.told h spared)
      isOpen := by
        rcases first.isOpen, second.isOpen with ⟨one | all, two | all⟩
        · exact .inl (two.trans one)
        all_goals exact .inr all
      agents := fun h => (second.agents h).trans (first.agents h) }

theorem SameQueues.changes (same : s.SameQueues t) : s.Changes touched t where
  queues := same.queues ▸ .refl _
  told h _ := told_congr same.notices h
  isOpen := .inl same.isOpen
  agents := same.agents

/-- A queue is found under its own handle, in this session and in those that come from it. -/
theorem Changes.wellFormed (changes : s.Changes touched t) (wf : s.queues.WellFormed Queue.handle) :
    t.queues.WellFormed Queue.handle :=
  changes.queues.wellFormed wf

/-- A queue that was not touched stays as it is, live or destroyed. -/
theorem Changes.heldQueue?_eq (changes : s.Changes touched t)
    (wf : s.queues.WellFormed Queue.handle) {q : Queue} (held : s.heldQueue? h = some q)
    (spared : ¬ touched h) : t.queues.get? h = s.queues.get? h ∧ t.heldQueue? h = some q :=
  changes.queues.held?_eq wf held spared

theorem Changes.mono {more : Handle → Prop} (changes : s.Changes touched t)
    (sub : ∀ h, touched h → more h) : s.Changes more t where
  queues := changes.queues.mono sub
  told h spared := changes.told h fun touch => spared (sub h touch)
  isOpen := changes.isOpen.imp_right fun all h => sub h (all h)
  agents := changes.agents

/-- Changes that spare a queue do not end the session. -/
theorem Changes.isOpen_eq (changes : s.Changes touched t) (spared : ¬ touched h) :
    t.isOpen = s.isOpen :=
  changes.isOpen.resolve_right fun all => spared (all h)

/-- Changes of one queue do not end the session. -/
theorem Changes.isOpen_eq_of_one (changes : s.Changes (· = h) t) : t.isOpen = s.isOpen := by
  refine changes.isOpen.resolve_right fun all => ?_
  cases (all ⟨0⟩).trans (all ⟨1⟩).symm

/-! ### Changing a queue -/

theorem changes_modifyQueue (s : Session) {f : Queue → Queue}
    (named : ∀ q, (f q).handle = q.handle) : s.Changes (· = h) (s.modifyQueue h f) where
  queues := .modify rfl named
  told _ _ := rfl
  isOpen := .inl rfl
  agents _ := rfl

theorem changes_modifyRing (s : Session) (h : Handle) (f : PacketRing → PacketRing) :
    s.Changes (· = h) (s.modifyQueue h (·.modifyRing f)) :=
  s.changes_modifyQueue fun _ => rfl

theorem Routine.changes (routine : s.Routine touched t) : s.Changes touched t := by
  induction routine with
  | refl s => exact refl_of _ s
  | trans _ _ first second => exact trans_of _ first second
  | setSignal | dropSignal | fill | tick =>
    exact SameQueues.changes ⟨rfl, rfl, rfl, fun _ => rfl⟩
  | ring touch s f => exact (s.changes_modifyRing _ f).mono fun _ same => same ▸ touch
  | inactivate touch s =>
    refine (s.changes_modifyQueue fun q => ?_).mono fun _ same => same ▸ touch
    rw [Queue.inactivate]
    split <;> rfl

/-! ### Destroying queues -/

theorem sameQueues_freeRing (s : Session) (ring : Option UInt64) :
    s.SameQueues (match ring with
      | none => s
      | some address => (freeBlock address .queueRing s).2) := by
  cases ring with
  | none => exact refl_of SameQueues s
  | some address => exact keeps_freeBlock _ _ s

/-- What a destroyed queue gives back are no queues. -/
theorem sameQueues_tearDown (s : Session) (q : Queue) : s.SameQueues (s.tearDown q) := by
  rw [tearDown]
  refine SameQueues.trans ?_ (sameQueues_freeRing _ _)
  cases q.agent with
  | none => exact ⟨rfl, rfl, rfl, fun _ => rfl⟩
  | some a =>
    have dropped := s.sameQueues_modifyAgent a (f := (·.dropQueue)) fun _ => ⟨rfl, rfl⟩
    dsimp only
    split
    · exact dropped.trans ⟨rfl, rfl, rfl, fun _ => rfl⟩
    · exact dropped

theorem destroy_handle (q : Queue) : q.destroy.handle = q.handle := rfl

theorem keeps_destroyQueue (h : Handle) : Keeps (Changes (· = h)) (destroyQueue h) :=
  keeps_ensureOpen.bind fun _ => .bind_session fun s => by
    cases removed : s.queues.remove h Queue.destroy with
    | none => exact refl_of (Changes (· = h)) s
    | some found =>
      obtain ⟨q, queues⟩ := found
      have taken : s.Changes (· = h) { s with queues } :=
        ⟨.remove rfl destroy_handle removed, fun _ _ => rfl, .inl rfl, fun _ => rfl⟩
      exact trans_of _ taken (sameQueues_tearDown _ q).changes

theorem sameQueues_releaseMemory (s : Session) : s.SameQueues s.releaseMemory := by
  have released : s.SameQueues
      (s.memory.allocations.foldl (fun s entry => s.releaseAllocation entry.2) s) :=
    sameQueues_foldl (f := fun s (entry : UInt64 × Allocation) => s.releaseAllocation entry.2)
      (fun _ _ => ⟨rfl, rfl, rfl, fun _ => rfl⟩) _ s
  exact released.trans ⟨rfl, rfl, rfl, fun _ => rfl⟩

/-- Shutting down takes out all queues; what else it does leaves the queues. -/
theorem shutDown_eq (isOpen : s.isOpen = true) :
    ∃ m, { s with queues := s.queues.drain Queue.destroy }.SameQueues m ∧
      (shutDown s).2 = { m with isOpen := false } := by
  have tornDown := sameQueues_foldl sameQueues_tearDown s.queues.values
    { s with queues := s.queues.drain Queue.destroy }
  have cleared : ∀ t : Session, t.SameQueues { t with
      signals := t.signals.drain id, executables := t.executables.drain id, kernels := [] } :=
    fun _ => ⟨rfl, rfl, rfl, fun _ => rfl⟩
  refine ⟨_, (tornDown.trans (cleared _)).trans (sameQueues_releaseMemory _), ?_⟩
  have opened : ensureOpen s = (.ok (), s) := ensureOpen_eq_ok.mpr ⟨isOpen, rfl⟩
  rw [shutDown, bind_apply, opened]
  rfl

/-- A session that is not open is not shut down again. -/
theorem shutDown_of_closed (closed : s.isOpen = false) : (shutDown s).2 = s := by
  simp [shutDown, ensureOpen, bind_apply, require, closed]

/-- Shutting down is the only thing that touches all queues. -/
theorem keeps_shutDown : Keeps (Changes fun _ => True) shutDown := fun s => by
  cases isOpen : s.isOpen with
  | false => exact (shutDown_of_closed isOpen).symm ▸ refl_of _ s
  | true =>
    obtain ⟨m, same, ran⟩ := shutDown_eq isOpen
    have drained : s.Changes (fun _ => True) { s with queues := s.queues.drain Queue.destroy } :=
      ⟨.drain (fun _ _ _ => trivial) destroy_handle, fun _ _ => rfl, .inl rfl, fun _ => rfl⟩
    have closed : m.Changes (fun _ => True) { m with isOpen := false } :=
      ⟨.refl _, fun _ _ => rfl, .inr fun _ => trivial, fun _ => rfl⟩
    rw [ran]
    exact trans_of _ (trans_of _ drained same.changes) closed

/-! ### Queues that have ended -/

/-- What the end of reservations leaves of a queue, and of what the application was told. -/
theorem held_inactivateQueue {q : Queue} (held : s.heldQueue? h = some q) :
    (inactivateQueue h s).2.notices = s.notices ∧
      ∃ q', (inactivateQueue h s).2.heldQueue? h = some q' ∧ (q' = q ∨ q' = q.inactivate) := by
  rcases queue_cases h s with ⟨found, -, live, answer⟩ | ⟨e, fault⟩
  · obtain rfl : found = q := Directory.eq_of_held? held live
    have ran : (inactivateQueue h s).2 = s.modifyQueue h (·.inactivate) := by
      rw [inactivateQueue, bind_apply, answer]
      rfl
    rw [ran]
    refine ⟨rfl, _, Directory.held?_of_get? ?_, .inr rfl⟩
    rw [modifyQueue, Directory.get?_modify_self, live, Option.map_some]
  · have ran : (inactivateQueue h s).2 = s := by rw [inactivateQueue, bind_apply, fault]
    rw [ran]
    exact ⟨rfl, q, held, .inl rfl⟩

/-- What the destruction leaves of a queue, and of what the application was told. -/
theorem held_destroyQueue (wf : s.queues.WellFormed Queue.handle) {q : Queue}
    (held : s.heldQueue? h = some q) :
    (destroyQueue h s).2.notices = s.notices ∧ ∃ q', (destroyQueue h s).2.heldQueue? h = some q' ∧
      (q' = q ∨ s.queues.get? h = some q ∧ q' = q.destroy) := by
  have unchanged : (destroyQueue h s).2 = s → (destroyQueue h s).2.notices = s.notices ∧
      ∃ q', (destroyQueue h s).2.heldQueue? h = some q' ∧
        (q' = q ∨ s.queues.get? h = some q ∧ q' = q.destroy) := fun same => by
    rw [same]
    exact ⟨rfl, q, held, .inl rfl⟩
  cases isOpen : s.isOpen with
  | false =>
    refine unchanged ?_
    simp [destroyQueue, ensureOpen, bind_apply, require, isOpen]
  | true =>
    have opened : ensureOpen s = (.ok (), s) := ensureOpen_eq_ok.mpr ⟨isOpen, rfl⟩
    cases removed : s.queues.remove h Queue.destroy with
    | none =>
      refine unchanged ?_
      simp [destroyQueue, bind_apply, opened, demand, removed]
    | some found =>
      obtain ⟨last, queues⟩ := found
      have ran : (destroyQueue h s).2 = { s with queues }.tearDown last := by
        simp [destroyQueue, bind_apply, opened, demand, Action.pure, removed]
      obtain ⟨before, live, -, found, rfl, -⟩ := Directory.remove_eq_some removed
      obtain rfl : before = q := Directory.eq_of_held? held found
      have same := sameQueues_tearDown { s with queues } before.destroy
      rw [ran]
      refine ⟨same.notices, _, ?_, .inr ⟨found, rfl⟩⟩
      rw [heldQueue?, same.queues]
      exact (Directory.held?_remove_self wf removed).2

/-- What shutting down leaves of a queue, and of what the application was told. -/
theorem held_shutDown (wf : s.queues.WellFormed Queue.handle) {q : Queue}
    (held : s.heldQueue? h = some q) :
    (shutDown s).2.notices = s.notices ∧ ∃ q', (shutDown s).2.heldQueue? h = some q' ∧
      (q' = q ∨ s.queues.get? h = some q ∧ q' = q.destroy) := by
  cases isOpen : s.isOpen with
  | false =>
    rw [shutDown_of_closed isOpen]
    exact ⟨rfl, q, held, .inl rfl⟩
  | true =>
    obtain ⟨m, same, ran⟩ := shutDown_eq isOpen
    have drained : m.heldQueue? h = (s.queues.drain Queue.destroy).held? h :=
      congrArg (Directory.held? · h) same.queues
    rw [ran]
    refine ⟨same.notices, ?_⟩
    cases live : s.queues.get? h with
    | none =>
      exact ⟨q, drained.trans ((Directory.held?_drain_of_gone wf live _).trans held), .inl rfl⟩
    | some found =>
      obtain rfl : found = q := Directory.eq_of_held? held live
      exact ⟨_, drained.trans (Directory.held?_drain_of_live wf live _), .inr ⟨rfl, rfl⟩⟩

/-! ### Making queues -/

/-- A session comes from another without a queue being touched, if there was room for one more. -/
def Adds (s t : Session) : Prop :=
  s.queues.live.slots.size < 2 ^ 32 → s.Changes (fun _ => False) t

theorem SameQueues.adds (same : s.SameQueues t) : s.Adds t :=
  fun _ => same.changes

theorem keeps_adds {α : Type} {x : Action α} (keeps : Keeps SameQueues x) : Keeps Adds x :=
  keeps.mono fun _ _ => SameQueues.adds

/-- Checks and preparations may come before. -/
theorem keeps_adds_bind {α β : Type} {x : Action α} {f : α → Action β} (hx : Keeps SameQueues x)
    (hf : ∀ a, Keeps Adds (f a)) : Keeps Adds (x >>= f) := fun s => by
  have first := hx s
  rw [bind_apply]
  generalize x s = after at first
  match after, first with
  | (.ok a, m), first =>
    intro room
    have rest := hf a m (first.queues ▸ room)
    exact trans_of _ first.changes rest
  | (.error e, m), first => exact first.adds

/-- An action may go on from a session that was prepared by other means. -/
theorem adds_continue {α : Type} {x : Action α} (same : s.SameQueues t) (hx : Keeps Adds x) :
    s.Adds ((change (fun _ => t) >>= fun _ => x) s).2 :=
  fun room => trans_of _ same.changes (hx t (same.queues ▸ room))

theorem keeps_insertQueue {make : Handle → UInt64 → Queue}
    (named : ∀ h id, (make h id).handle = h) : Keeps Adds (insertQueue make) :=
  .bind_session fun _ room => ⟨.insert room (named _ _), fun _ _ => rfl, .inl rfl, fun _ => rfl⟩

theorem keeps_createSoftQueue (regionHandle : Handle) (size : UInt32) (type : QueueType)
    (features : Features) (doorbell : Handle) :
    Keeps Adds (createSoftQueue regionHandle size type features doorbell) :=
  keeps_adds_bind keeps_ensureOpen fun _ => keeps_adds_bind (keeps_require _ _) fun _ =>
    keeps_adds_bind (keeps_require _ _) fun _ => keeps_adds_bind (keeps_require _ _) fun _ =>
    keeps_adds_bind (keeps_region _) fun r => keeps_adds_bind (keeps_signal _) fun _ =>
    keeps_adds_bind keeps_session fun _ => keeps_adds_bind keeps_session fun _ =>
    keeps_adds_bind (keeps_require _ _) fun _ =>
    keeps_adds_bind (keeps_change fun _ => ⟨rfl, rfl, rfl, fun _ => rfl⟩) fun _ =>
    .bind_session fun s => by
      cases taken : s.allocateFrom r (PacketRing.storageBytes size) (.ofNat Packet.alignment)
        .queueRing with
      | error cause =>
        exact keeps_adds ((keeps_change fun _ => ⟨rfl, rfl, rfl, fun _ => rfl⟩).bind fun _ =>
          keeps_refuse _) s
      | ok block =>
        obtain ⟨start, rounded, t⟩ := block
        exact adds_continue (sameQueues_allocateFrom taken) (keeps_insertQueue fun _ _ => rfl)

/-! ### Consuming packets -/

/-- The read index can be loaded as long as the queue is live. -/
theorem loadReadIndex_cases (h : Handle) (s : Session) :
    (∃ q, s.isOpen = true ∧ s.queues.get? h = some q ∧
        loadReadIndex h .relaxed s = (.ok q.ring.readIndex, s)) ∨
      ∃ e, queue h s = (.error e, s) ∧ loadReadIndex h .relaxed s = (.error e, s) := by
  rcases queue_cases h s with ⟨q, isOpen, live, found⟩ | ⟨e, missing⟩
  · refine .inl ⟨q, isOpen, live, ?_⟩
    rw [loadReadIndex, bind_apply, found]
    rfl
  · refine .inr ⟨e, missing, ?_⟩
    rw [loadReadIndex, bind_apply, missing]

/-- What consuming one packet comes to. -/
theorem tryNext_eq {q : Queue} (isOpen : s.isOpen = true) (live : s.queues.get? h = some q) :
    tryNext h s =
      if (Header.ofWord (q.ring.word q.ring.readIndex)).isUnpublished then (.ok none, s)
      else
        let consumed := s.consume q q.ring.readIndex (q.ring.word q.ring.readIndex)
        (.ok (some (consumed.1, consumed.2.1)), consumed.2.2) := by
  have found : queue h s = (.ok q, s) := queue_eq_ok.mpr ⟨isOpen, live, rfl⟩
  have read : loadReadIndex h .relaxed s = (.ok q.ring.readIndex, s) := by
    rw [loadReadIndex, bind_apply, found]
    rfl
  rw [tryNext, bind_apply, read]
  dsimp only
  rw [bind_apply, found]
  dsimp only
  split <;> rfl

/-- A queue that is not live has no packets to consume. -/
theorem tryNext_of_missing {e : Fault} (missing : queue h s = (.error e, s)) :
    tryNext h s = (.error e, s) := by
  rw [tryNext, loadReadIndex, bind_apply, bind_apply, missing]

theorem routine_tryNext (wf : s.queues.WellFormed Queue.handle) (h : Handle) :
    s.Routine (· = h) (tryNext h s).2 := by
  rcases queue_cases h s with ⟨q, isOpen, live, -⟩ | ⟨e, missing⟩
  · rw [tryNext_eq isOpen live]
    split
    · exact .refl s
    · obtain rfl := wf.named h q live
      exact routine_consume live _ _
  · rw [tryNext_of_missing missing]
    exact .refl s

/-- When a consumer has looked at a slot, it does not look at one next. -/
theorem lookAt_ne_looking (s : Session) (h : Handle) (ends : List PacketView → Bool)
    (index : UInt64) (seen : List PacketView) (i : UInt64) :
    (s.lookAt h ends index seen).1 ≠ .looking i := by
  rw [lookAt]
  cases s.heldQueue? h with
  | none => nofun
  | some q =>
    dsimp only
    split
    · nofun
    · rcases s.consume q index (q.ring.word index) with ⟨view, consumed, t⟩
      cases consumed with
      | completed =>
        dsimp only [Consumed.leadsTo]
        split <;> nofun
      | failed | overflowed => nofun

theorem routine_lookAt (wf : s.queues.WellFormed Queue.handle) {q : Queue}
    (live : s.queues.get? h = some q) (ends : List PacketView → Bool) (index : UInt64)
    (seen : List PacketView) : s.Routine (· = h) (s.lookAt h ends index seen).2.2 := by
  have held : s.heldQueue? h = some q := Directory.held?_of_get? live
  rw [lookAt, held]
  dsimp only
  split
  · exact .refl s
  · obtain rfl := wf.named h q live
    exact routine_consume live index (q.ring.word index)

theorem handlePackets_of_underway {p : Processing} (underway : p.isUnderway = true)
    {ends : List PacketView → Bool} {fuel : Nat} {seen : List PacketView} :
    handlePackets h ends (fuel + 1) (p, seen, s) =
      handlePackets h ends fuel (stepProcess h ends (p, seen, s)) :=
  if_pos underway

theorem handlePackets_of_rest {p : Processing} (rest : p.isUnderway = false)
    {ends : List PacketView → Bool} {seen : List PacketView} (fuel : Nat) :
    handlePackets h ends fuel (p, seen, s) = (p, seen, s) := by
  cases fuel with
  | zero => rfl
  | succ fuel => exact if_neg (Bool.eq_false_iff.mp rest)

theorem routine_handlePackets (fuel : Nat) (ends : List PacketView → Bool) (p : Processing)
    (seen : List PacketView) (s : Session) (wf : s.queues.WellFormed Queue.handle)
    (found : ∀ index, p = .looking index → ∃ q, s.queues.get? h = some q) :
    s.Routine (· = h) (handlePackets h ends fuel (p, seen, s)).2.2 := by
  induction fuel generalizing p seen s with
  | zero => exact .refl s
  | succ fuel ih =>
    cases p with
    | next =>
      rw [handlePackets_of_underway rfl, stepProcess]
      rcases loadReadIndex_cases h s with ⟨q, -, live, read⟩ | ⟨e, -, fault⟩
      · rw [read]
        exact ih _ seen s wf fun _ _ => ⟨q, live⟩
      · rw [fault]
        exact ih _ seen s wf nofun
    | looking index =>
      obtain ⟨q, live⟩ := found index rfl
      have looked := routine_lookAt wf live ends index seen
      have goesOn := s.lookAt_ne_looking h ends index seen
      rw [handlePackets_of_underway rfl, stepProcess]
      generalize s.lookAt h ends index seen = state at looked goesOn
      obtain ⟨p, seen, t⟩ := state
      exact looked.trans (ih p seen t (looked.changes.wellFormed wf) fun i same =>
        absurd same (goesOn i))
    | idle | ended => exact .refl s

theorem routine_process (wf : s.queues.WellFormed Queue.handle) (h : Handle)
    (ends : List PacketView → Bool) : s.Routine (· = h) (process h ends s).2.2 :=
  routine_handlePackets _ ends .next [] s wf nofun

end Session

end Accelerator
