import Accelerator.Proofs.Runs.Signals
import Mathlib.Data.List.Nodup

/-!
# Numbers of queues

Besides its handle a queue has a number, which is shown to tools. Handles of queues are used up as
their slots go through the generations; numbers are counted up. A counter of 64 bits comes round in
principle, and then numbers would be given twice. It never does: each queue has a handle of its own,
and there are not enough handles for the counter to come round.

## Counting handles

The bound is not assumed. `Session.Numbered.counted` lists the handles that were issued for queues,
which are distinct and not null. There are fewer than `2 ^ 64` of these, and the next number is the
length of the list. A queue that was made and withdrawn has used up a handle and a number too, so it
is on the list.

## Main definitions

* `Session.SameNumbers`: no queue was made, and those there are kept their numbers.
* `Session.Numbered`: all numbers lie below the next one.

## Main results

* `Session.Step.numbers`: what a step does to numbers.
* `Session.Hosted.numbered`: along every run, the next number has not been given yet.
-/

namespace Accelerator

namespace Session

variable {s t u : Session} {touched : Handle → Prop} {h : Handle} {q : Queue} {p : Processor}

/-! ### Numbers stay -/

/-- No queue was made, and all queues, live or destroyed, have the numbers that they had. -/
structure SameNumbers (s t : Session) : Prop where
  next : t.nextQueueId = s.nextQueueId
  shown : ∀ h, (t.heldQueue? h).map Queue.id = (s.heldQueue? h).map Queue.id

theorem SameNumbers.trans (first : s.SameNumbers t) (second : t.SameNumbers u) :
    s.SameNumbers u :=
  ⟨second.next.trans first.next, fun h => (second.shown h).trans (first.shown h)⟩

instance : IsPreorder Session SameNumbers where
  refl _ := ⟨rfl, fun _ => rfl⟩
  trans _ _ _ := .trans

theorem SameNumbers.of_eq (next : t.nextQueueId = s.nextQueueId) (same : t.queues = s.queues) :
    s.SameNumbers t :=
  ⟨next, fun h => congrArg (fun d : Directory Queue => (d.held? h).map Queue.id) same⟩

theorem sameNumbers_modifyQueue (s : Session) (h : Handle) {f : Queue → Queue}
    (kept : ∀ q, (f q).id = q.id) : s.SameNumbers (s.modifyQueue h f) :=
  ⟨rfl, Directory.map_held?_modify kept s.queues h⟩

theorem id_inactivate (q : Queue) : q.inactivate.id = q.id := by
  rw [Queue.inactivate]
  split <;> rfl

theorem Routine.numbers (routine : s.Routine touched t) : s.SameNumbers t := by
  induction routine with
  | refl s => exact refl_of SameNumbers s
  | trans _ _ first second => exact first.trans second
  | setSignal | dropSignal | fill | tick => exact .of_eq rfl rfl
  | ring _ s => exact s.sameNumbers_modifyQueue _ fun _ => rfl
  | inactivate _ s => exact s.sameNumbers_modifyQueue _ id_inactivate

theorem sameNumbers_setProcessor (s : Session) (q : Queue) (p : Processor) :
    s.SameNumbers (s.setProcessor q p) :=
  s.sameNumbers_modifyQueue _ fun _ => rfl

theorem sameNumbers_failPacket (s : Session) (q : Queue) (p : Processor) (cause : Fault) :
    s.SameNumbers (s.failPacket q p cause) := by
  have marked := (s.sameNumbers_modifyQueue q.handle id_inactivate).trans
    (sameNumbers_setProcessor _ q { p with state := .stopped })
  rw [failPacket]
  split
  · exact marked.trans (.of_eq rfl rfl)
  · exact marked

theorem sameNumbers_advance (s : Session) (q : Queue) (p : Processor) :
    s.SameNumbers (s.advance q p) := by
  have retired : s.SameNumbers _ :=
    s.sameNumbers_modifyQueue q.handle (f := (·.modifyRing (·.retire p.index))) fun _ => rfl
  rw [advance]
  split
  · exact retired.trans (sameNumbers_setProcessor _ q _)
  case h_2 next _ =>
    have moved := retired.trans (sameNumbers_modifyQueue _ q.handle
      (f := (·.modifyRing (·.setReadIndex next))) fun _ => rfl)
    exact moved.trans (sameNumbers_setProcessor _ q _)

theorem sameNumbers_runLaunch (s : Session) (l : Launch) : s.SameNumbers (s.runLaunch l).2 :=
  .of_eq rfl rfl

/-- Command processors number no queues. -/
theorem Move.numbers {deeds : List Deed} (move : s.Move q p deeds t) : s.SameNumbers t := by
  cases move with
  | look | resume | leave | skip | hold | crash | pass => exact s.sameNumbers_setProcessor q _
  | run => exact (s.sameNumbers_runLaunch _).trans (sameNumbers_setProcessor _ q _)
  | panic => exact (s.sameNumbers_runLaunch _).trans (sameNumbers_failPacket _ q p _)
  | refuse | give | miss => exact s.sameNumbers_failPacket q p _
  | @complete completion =>
    have counted : s.SameNumbers (s.countDown completion) := by
      cases completion <;> exact .of_eq rfl rfl
    exact counted.trans (sameNumbers_advance _ q p)

theorem sameNumbers_tearDown (s : Session) (q : Queue) : s.SameNumbers (s.tearDown q) := by
  have place : (s.giveUpPlace q).nextQueueId = s.nextQueueId := by
    rcases s.giveUpPlace_cases q with ⟨a, signals, -, same⟩ | ⟨-, same⟩
    · rw [same]
      rfl
    · rw [same]
  refine .of_eq ?_ (sameQueues_tearDown s q).queues
  rcases s.tearDown_cases q with ⟨same, -⟩ | ⟨address, a, memory, -, -, same⟩
  · rw [same, place]
  · rw [same]
    exact place

theorem sameNumbers_withoutQueues (s : Session) :
    { s with queues := s.queues.drain Queue.destroy }.SameNumbers s.withoutQueues := by
  have each : ∀ (qs : List Queue) (m : Session), m.SameNumbers (qs.foldl tearDown m) := by
    intro qs
    induction qs with
    | nil => exact fun m => refl_of SameNumbers m
    | cons q rest ih => exact fun m => (m.sameNumbers_tearDown q).trans (ih _)
  exact each s.queues.values _

/-- Taking all queues out leaves their numbers. -/
theorem sameNumbers_ended (wf : s.WellFormed) : s.SameNumbers s.ended := by
  have drained : s.SameNumbers { s with queues := s.queues.drain Queue.destroy } := by
    refine ⟨rfl, fun h => ?_⟩
    rw [heldQueue?, heldQueue?]
    cases live : s.queues.get? h with
    | none => rw [Directory.held?_drain_of_gone wf.queues live]
    | some q =>
      rw [Directory.held?_drain_of_live wf.queues live, Directory.held?_of_get? live]
      rfl
  refine (drained.trans s.sameNumbers_withoutQueues).trans ?_
  rw [ended, releaseMemory_eq]
  exact .of_eq rfl rfl

theorem sameNumbers_destroyQueue (wf : s.WellFormed) {queues : Directory Queue}
    (removed : s.queues.remove h Queue.destroy = some (q, queues)) :
    s.SameNumbers ({ s with queues }.tearDown q) := by
  have taken : s.SameNumbers { s with queues } := by
    refine ⟨rfl, fun k => ?_⟩
    obtain ⟨before, -, -, live, rfl, -⟩ := Directory.remove_eq_some removed
    rw [heldQueue?, heldQueue?, Directory.held?_remove wf.queues removed]
    split
    case isTrue same =>
      rw [same, Directory.held?_of_get? live]
      rfl
    case isFalse => rfl
  exact taken.trans (sameNumbers_tearDown _ q)

/-! ### The next number -/

/-- A queue was made, with the next number. It may have been destroyed already. -/
structure Numbers (s t : Session) : Prop where
  next : t.nextQueueId = s.nextQueueId + 1
  shown : ∀ h, (t.heldQueue? h).map Queue.id =
    if h = s.queues.nextHandle then some s.nextQueueId else (s.heldQueue? h).map Queue.id
  issued : t.queues.Issued s.queues.nextHandle

theorem numbers_insert (room : s.HasRoom) (wf : s.WellFormed) (number : q.id = s.nextQueueId)
    (next : t.nextQueueId = s.nextQueueId + 1) (same : t.queues = s.queues.insert q) :
    s.Numbers t where
  next := next
  shown h := by
    rw [heldQueue?, same, Directory.held?_insert wf.queues room.2.1, ← number]
    split <;> rfl
  issued := by
    rw [same, Directory.Issued, Directory.isLive, Directory.get?_insert wf.queues room.2.1,
      if_pos rfl]
    exact .inl rfl

theorem Numbers.congr (numbers : s.Numbers t) (same : t.SameNumbers u)
    (issued : u.queues.Issued s.queues.nextHandle) : s.Numbers u :=
  ⟨same.next.trans numbers.next, fun h => (same.shown h).trans (numbers.shown h), issued⟩

theorem Effect.numbers (effect : s.Effect t) (room : s.HasRoom) (wf : s.WellFormed) :
    s.SameNumbers t ∨ s.Numbers t := by
  cases effect with
  | routine routine => exact .inl routine.numbers
  | createSignal | allocate | free | assign | serve | register => exact .inl (.of_eq rfl rfl)
  | createQueue => exact .inr (numbers_insert room wf rfl rfl rfl)
  | @withdrawQueue _ _ a _ host _ _ q queues _ made removed =>
    have named : q.handle = s.queues.nextHandle := congrArg Queue.handle made
    have numbers : s.Numbers (s.withHardwareQueue a q host) :=
      numbers_insert room wf (congrArg Queue.id made) rfl rfl
    have torn := sameNumbers_destroyQueue (wf.withHardwareQueue room a host named) removed
    refine .inr (numbers.congr torn ?_)
    rw [(sameQueues_tearDown _ q.destroy).queues]
    exact Directory.issued_of_remove removed
  | createSoftQueue _ _ _ _ _ _ _ _ numbered =>
    exact .inr (numbers_insert room wf numbered rfl rfl)
  | destroyQueue removed => exact .inl (sameNumbers_destroyQueue wf removed)
  | shutDown => exact .inl (sameNumbers_ended wf)

/-- A step leaves all numbers, or makes a queue with the next one; then there was room for one. -/
theorem Step.numbers {turn : Turn} (step : Step turn s t) (wf : s.WellFormed) :
    s.SameNumbers t ∨ s.queues.live.slots.size < 2 ^ 32 ∧ s.Numbers t := by
  cases step with
  | @application _ o room =>
    rcases reloads_or_effect room wf.queues o with ⟨_, _, _, reloaded⟩ | effect
    · rw [reloaded]
      exact .inl (.of_eq rfl rfl)
    · exact (effect.numbers room wf).imp_right fun numbers => ⟨room.2.1, numbers⟩
  | processor live stepped =>
    obtain ⟨p, deeds, -, move⟩ := Move.exists_of_stepProcessor? stepped
    exact .inl move.numbers

/-- The numbers of all queues lie below the next number, which counts the handles that were issued
for queues. -/
structure Numbered (s : Session) : Prop where
  below : ∀ h q, s.heldQueue? h = some q → q.id.toNat < s.nextQueueId.toNat
  counted : ∃ issued : List Handle, issued.Nodup ∧
    (∀ h ∈ issued, s.queues.Issued h ∧ h.isNull = false) ∧
    s.nextQueueId.toNat = issued.length

/-- There are fewer handles than words. -/
theorem length_lt_of_nodup {issued : List Handle} (apart : issued.Nodup)
    (real : ∀ h ∈ issued, h.isNull = false) : issued.length < 2 ^ 64 := by
  have words : (issued.map fun h => h.raw.toNat).Nodup := by
    refine apart.map fun h k same => ?_
    cases h
    cases k
    exact congrArg Handle.mk (UInt64.toNat_inj.mp same)
  have within : issued.map (fun h => h.raw.toNat) ⊆ List.range' 1 (2 ^ 64 - 1) := by
    intro n listed
    obtain ⟨h, mem, rfl⟩ := List.mem_map.mp listed
    have positive : h.raw ≠ 0 := by simpa [Handle.isNull] using real h mem
    have small := h.raw.toNat_lt
    exact List.mem_range'_1.mpr ⟨toNat_pos_of_ne_zero positive, by omega⟩
  have few := (List.subperm_of_subset words within).length_le
  rw [List.length_map, List.length_range'] at few
  omega

theorem Numbers.numbered (numbers : s.Numbers t) (numbered : s.Numbered) (wf : s.WellFormed)
    (room : s.queues.live.slots.size < 2 ^ 32) (evolves : s.Changes touched t) : t.Numbered := by
  obtain ⟨issued, apart, each, counted⟩ := numbered.counted
  have named : (s.queues.insert default).get? s.queues.nextHandle = some default :=
    (Directory.get?_insert wf.queues room _ _).trans (if_pos rfl)
  have apart' : (s.queues.nextHandle :: issued).Nodup :=
    List.nodup_cons.mpr
      ⟨fun mem => wf.queues.nextHandle_not_issued room (each _ mem).1, apart⟩
  have each' : ∀ h ∈ s.queues.nextHandle :: issued, t.queues.Issued h ∧ h.isNull = false := by
    intro h mem
    rcases List.mem_cons.mp mem with rfl | mem
    · exact ⟨numbers.issued, (Arena.get?_eq_some_iff.mp named).1⟩
    · exact (each h mem).imp_left (evolves.queues.issued wf.queues)
  -- one handle more than there were, and still fewer than words
  have fits : issued.length + 1 < 2 ^ 64 := length_lt_of_nodup apart' fun h mem => (each' h mem).2
  have next : t.nextQueueId.toNat = s.nextQueueId.toNat + 1 := by
    rw [numbers.next, UInt64.toNat_add, counted]
    exact Nat.mod_eq_of_lt fits
  refine ⟨fun h q' held => ?_, _, apart', each', by rw [next, counted]; rfl⟩
  have shown := numbers.shown h
  rw [held, Option.map_some] at shown
  split at shown
  · rw [next, Option.some.inj shown]
    exact Nat.lt_succ_self _
  · obtain ⟨q, before, number⟩ := Option.map_eq_some_iff.mp shown.symm
    have below := numbered.below h q before
    rw [next, ← number]
    omega

theorem SameNumbers.numbered (same : s.SameNumbers t) (numbered : s.Numbered) (wf : s.WellFormed)
    (evolves : s.Changes touched t) : t.Numbered := by
  obtain ⟨issued, apart, each, counted⟩ := numbered.counted
  refine ⟨fun h q' held => ?_, issued, apart, fun h mem => ?_, same.next ▸ counted⟩
  · have shown := same.shown h
    rw [held, Option.map_some] at shown
    obtain ⟨q, before, number⟩ := Option.map_eq_some_iff.mp shown.symm
    rw [same.next, ← number]
    exact numbered.below h q before
  · exact (each h mem).imp_left (evolves.queues.issued wf.queues)

/-- Along every run the next number has not been given yet. -/
theorem Hosted.numbered (hosted : s.Hosted) : s.Numbered := by
  induction hosted with
  | opened opened =>
    rw [openConfig_eq_ok opened]
    refine ⟨fun h q held => ?_, [], List.nodup_nil, nofun, rfl⟩
    cases held.symm.trans (Directory.held?_empty h)
  | rehost _ host numbered => exact ⟨numbered.below, numbered.counted⟩
  | step before sound step numbered =>
    have wf := before.wellFormed
    have changes := step.changes wf.queues
    rcases step.numbers wf with same | ⟨room, numbers⟩
    · exact same.numbered numbered wf changes
    · exact numbers.numbered numbered wf room changes

end Session

end Accelerator
