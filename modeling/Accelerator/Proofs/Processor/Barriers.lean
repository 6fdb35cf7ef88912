import Accelerator.Proofs.Processor.Moves

/-!
# Barriers

What the barrier in a slot depends on, and when its condition holds. A processor that has examined a
barrier remembers the signals that it names; these are the ones that the slot spells out, and the
processor goes on exactly when their values allow it.

## All signals are looked at

A processor gets the values of all signals before it looks at any of them. So a barrier fails if one
of its signals is gone, also if another one would have let the processor go on. `Opens` asks for
both. A signal that is gone reads neither 0 nor anything else, so only if all of them are live is a
condition that is not met an unmet one.

## Main definitions

* `Barrier.pending`, `Slot.pendingBarrier?`: what a processor remembers of the barrier in a slot.
* `PendingBarrier.Met`, `PendingBarrier.Unmet`: its condition holds, or does not.
* `PendingBarrier.Stale`: one of the signals that it depends on is not live.

## Main results

* `Session.examine_eq_held`: a processor holds the barrier that it has found in the slot.
* `Session.barrierOpens_eq_ok`: when it does not go on.
* `Session.finds_examine`, `Session.looks_barrierOpens`: what a processor finds that examines a
  barrier, and one that looks at its signals.
-/

namespace Accelerator

/-! ### Barriers in slots -/

/-- A barrier as a processor remembers it: the signals that it names, where the handle 0 names none,
and whether all of those that it depends on must read 0, or one of them. -/
def Barrier.pending (b : Barrier) (all : Bool) : PendingBarrier where
  dependencies := b.dependencies.toList.filterMap fun raw => if raw = 0 then none else some ⟨raw⟩
  all
  completion := if b.completionSignal = 0 then none else some ⟨b.completionSignal⟩

/-- The barrier in a slot. -/
def Slot.pendingBarrier? (slot : Slot) : Option PendingBarrier :=
  match slot.header.type? with
  | some .barrierAnd => some ((Barrier.ofBytes slot.bytes).pending true)
  | some .barrierOr => some ((Barrier.ofBytes slot.bytes).pending false)
  | _ => none

/-- The condition of a barrier does not hold: if all of its signals must read 0, one of them does
not; otherwise it has signals, none of which reads 0. -/
def PendingBarrier.Unmet (b : PendingBarrier) (s : Session) : Prop :=
  let pending (h : Handle) : Prop := ∃ signal, s.signals.get? h = some signal ∧ signal.value ≠ 0
  if b.all then ∃ h ∈ b.dependencies, pending h
  else b.dependencies ≠ [] ∧ ∀ h ∈ b.dependencies, pending h

/-- A slot that holds a barrier is published. -/
theorem Slot.isUnpublished_of_pendingBarrier? {slot : Slot} {b : PendingBarrier}
    (holds : slot.pendingBarrier? = some b) : slot.header.isUnpublished = false := by
  cases vacant : slot.header.isUnpublished with
  | false => rfl
  | true =>
    have type : slot.header.type? = some .invalid := by
      rw [Header.type?, of_decide_eq_true vacant]
      rfl
    rw [pendingBarrier?, type] at holds
    cases holds

namespace PendingBarrier

variable {b : PendingBarrier} {s : Session} {d : Handle}

/-- One of the signals that the barrier depends on is not live. -/
def Stale (b : PendingBarrier) (s : Session) (d : Handle) : Prop :=
  d ∈ b.dependencies ∧ s.signals.isLive d = false

/-- The condition of a barrier: all of the signals that it depends on read 0; or one of them does,
or there are none. -/
def Met (b : PendingBarrier) (s : Session) : Prop :=
  let zero (d : Handle) : Prop := ∃ signal, s.signals.get? d = some signal ∧ signal.value = 0
  if b.all then ∀ d ∈ b.dependencies, zero d
  else b.dependencies = [] ∨ ∃ d ∈ b.dependencies, zero d

/-- A barrier lets its processor go on: the signals that it depends on are live, and its condition
holds. -/
def Opens (b : PendingBarrier) (s : Session) : Prop :=
  (∀ d, ¬ b.Stale s d) ∧ b.Met s

/-- What a processor finds that looks at the signals of a barrier. -/
inductive Looks (b : PendingBarrier) (s : Session) : Except Fault Bool → Prop where
  | stale {d : Handle} (stale : b.Stale s d) : Looks b s (.error (.invalidSignal d))
  | opens (opens : b.Opens s) : Looks b s (.ok true)
  | waits (live : ∀ d, ¬ b.Stale s d) (unmet : ¬ b.Met s) : Looks b s (.ok false)

theorem exists_of_not_stale (live : ∀ d, ¬ b.Stale s d) (named : d ∈ b.dependencies) :
    ∃ signal, s.signals.get? d = some signal := by
  cases found : s.signals.get? d with
  | some signal => exact ⟨signal, rfl⟩
  | none => exact absurd ⟨named, congrArg Option.isSome found⟩ (live d)

/-- Once all of its signals are live, the condition of a barrier holds or is unmet, and not both. -/
theorem met_iff (live : ∀ d, ¬ b.Stale s d) : b.Met s ↔ ¬ b.Unmet s := by
  have reads : ∀ d ∈ b.dependencies,
      (∃ signal, s.signals.get? d = some signal ∧ signal.value = 0) ↔
        ¬ ∃ signal, s.signals.get? d = some signal ∧ signal.value ≠ 0 := by
    intro d named
    obtain ⟨signal, found⟩ := exists_of_not_stale live named
    simp [found]
  rw [Met, Unmet]
  dsimp only
  cases b.all with
  | true =>
    simp only [if_true, not_exists, not_and]
    exact forall₂_congr fun d named => (reads d named).trans (by simp)
  | false =>
    simp only [Bool.false_eq_true, if_false, not_and_or, not_not, not_forall]
    refine or_congr Iff.rfl (exists_congr fun d => ⟨?_, ?_⟩)
    · rintro ⟨named, zero⟩
      exact ⟨named, (reads d named).mp zero⟩
    · rintro ⟨named, other⟩
      exact ⟨named, (reads d named).mpr other⟩

/-- The signals that a barrier in a slot depends on are those that the slot names. -/
theorem mem_dependencies {barrier : Barrier} {all : Bool} :
    d ∈ (barrier.pending all).dependencies ↔ d.raw ≠ 0 ∧ d.raw ∈ barrier.dependencies.toList := by
  rw [Barrier.pending, List.mem_filterMap]
  constructor
  · rintro ⟨raw, named, found⟩
    split at found
    · cases found
    · cases found
      exact ⟨‹_›, named⟩
  · rintro ⟨nonzero, named⟩
    exact ⟨d.raw, named, if_neg nonzero⟩

end PendingBarrier

namespace Session

open Accelerator.Action

variable {s t : Session} {h : Handle} {q q' : Queue} {p : Processor} {index : UInt64}

theorem mapM_packetSignal {raws : List UInt64} {found : List (Option Handle)}
    (resolved : raws.mapM s.packetSignal = .ok found) :
    found = raws.map fun raw => if raw = 0 then none else some ⟨raw⟩ := by
  induction raws generalizing found with
  | nil =>
    cases resolved
    rfl
  | cons raw rest ih =>
    rw [List.mapM_cons] at resolved
    cases first : s.packetSignal raw with
    | error cause =>
      rw [first] at resolved
      cases resolved
    | ok completion =>
      cases others : rest.mapM s.packetSignal with
      | error cause =>
        rw [first, others] at resolved
        cases resolved
      | ok more =>
        rw [first, others] at resolved
        cases resolved
        rw [(packetSignal_eq_ok first).1, ih others, List.map_cons]

theorem examineBarrier_eq_held {barrier : Barrier} {all : Bool} {b : PendingBarrier}
    (examined : s.examineBarrier barrier all = .held b) : b = barrier.pending all := by
  rw [examineBarrier] at examined
  cases signal : s.packetSignal barrier.completionSignal with
  | error cause =>
    rw [signal] at examined
    cases examined
  | ok completion =>
    cases resolved : barrier.dependencies.toList.mapM s.packetSignal with
    | error cause =>
      rw [signal, resolved] at examined
      cases examined
    | ok found =>
      rw [signal, resolved] at examined
      cases examined
      rw [(packetSignal_eq_ok signal).1, mapM_packetSignal resolved, List.filterMap_map]
      rfl

/-- A processor that holds a barrier has found it in the slot. -/
theorem examine_eq_held {b : PendingBarrier} {m : Session}
    (examined : s.examine q index (q.ring.word index) = (.held b, m)) :
    (q.ring.read index).pendingBarrier? = some b := by
  have outcome := s.outcome_examine q index (q.ring.word index)
  rw [examined] at outcome
  cases outcome with
  | held other signal =>
    have header : (q.ring.read index).header = Header.ofWord (q.ring.word index) := rfl
    rw [Slot.pendingBarrier?, header]
    rw [examine] at examined
    cases type : (Header.ofWord (q.ring.word index)).type? with
    | none =>
      rw [type] at examined
      cases examined
    | some kind =>
      rw [type] at examined
      cases kind with
      | kernelDispatch => exact absurd type other
      | vendorSpecific | invalid | agentDispatch => cases examined
      | barrierAnd => exact congrArg some (examineBarrier_eq_held (congrArg Prod.fst examined)).symm
      | barrierOr => exact congrArg some (examineBarrier_eq_held (congrArg Prod.fst examined)).symm

/-- Examining a packet leaves the queues. -/
theorem queues_examine (s : Session) (q : Queue) (index : UInt64) (word : UInt32) :
    (s.examine q index word).2.queues = s.queues := by
  have outcome := s.outcome_examine q index word
  generalize s.examine q index word = result at outcome ⊢
  obtain ⟨examined, m⟩ := result
  cases outcome <;> rfl

theorem signalValues_eq_ok {hs : List Handle} {values : List Int64}
    (read : s.signalValues hs = .ok values) :
    values = hs.filterMap (fun h => (s.signals.get? h).map Signal.value) ∧
      ∀ h ∈ hs, ∃ signal, s.signals.get? h = some signal := by
  induction hs generalizing values with
  | nil =>
    cases read
    exact ⟨rfl, nofun⟩
  | cons h rest ih =>
    rw [signalValues] at read
    cases found : s.signals.get? h with
    | none =>
      rw [found] at read
      cases read
    | some signal =>
      rw [found] at read
      cases others : s.signalValues rest with
      | error cause =>
        rw [others] at read
        cases read
      | ok more =>
        rw [others] at read
        cases read
        obtain ⟨rfl, live⟩ := ih others
        exact ⟨by simp [found], List.forall_mem_cons.mpr ⟨⟨signal, found⟩, live⟩⟩

/-- A processor that can tell whether to go on does not do so exactly if the condition of its
barrier does not hold. -/
theorem barrierOpens_eq_ok {b : PendingBarrier} {opens : Bool}
    (told : s.barrierOpens b = .ok opens) : opens = false ↔ b.Unmet s := by
  rw [barrierOpens] at told
  cases read : s.signalValues b.dependencies with
  | error cause =>
    rw [read] at told
    cases told
  | ok values =>
    obtain ⟨rfl, live⟩ := signalValues_eq_ok read
    rw [read] at told
    cases told
    have reads : ∀ {h : Handle} {signal : Signal}, h ∈ b.dependencies →
        s.signals.get? h = some signal → signal.value ∈
          b.dependencies.filterMap fun h => (s.signals.get? h).map Signal.value :=
      fun named found => List.mem_filterMap.mpr ⟨_, named, by rw [found]; rfl⟩
    rw [PendingBarrier.Unmet]
    dsimp only
    cases b.all with
    | true =>
      rw [if_pos rfl, if_pos rfl, List.all_eq_false]
      constructor
      · rintro ⟨value, listed, nonzero⟩
        obtain ⟨h, named, same⟩ := List.mem_filterMap.mp listed
        obtain ⟨signal, found, rfl⟩ := Option.map_eq_some_iff.mp same
        exact ⟨h, named, signal, found, by simpa using nonzero⟩
      · rintro ⟨h, named, signal, found, nonzero⟩
        exact ⟨signal.value, reads named found, by simpa using nonzero⟩
    | false =>
      rw [if_neg Bool.false_ne_true, if_neg Bool.false_ne_true, Bool.or_eq_false_iff,
        List.isEmpty_eq_false_iff_exists_mem, List.any_eq_false]
      constructor
      · rintro ⟨⟨value, listed⟩, nonzero⟩
        obtain ⟨h, named, -⟩ := List.mem_filterMap.mp listed
        refine ⟨List.ne_nil_of_mem named, fun h named => ?_⟩
        obtain ⟨signal, found⟩ := live h named
        exact ⟨signal, found, by simpa using nonzero _ (reads named found)⟩
      · rintro ⟨nonempty, pending⟩
        obtain ⟨h, named⟩ := List.exists_mem_of_ne_nil _ nonempty
        obtain ⟨signal, found⟩ := live h named
        refine ⟨⟨signal.value, reads named found⟩, fun value listed => ?_⟩
        obtain ⟨h, named, same⟩ := List.mem_filterMap.mp listed
        obtain ⟨signal, found, rfl⟩ := Option.map_eq_some_iff.mp same
        obtain ⟨other, again, nonzero⟩ := pending h named
        cases found.symm.trans again
        simpa using nonzero

/-! ### Looking at signals -/

variable {b : PendingBarrier}

/-- The values of signals can be read unless one of the signals is not live. -/
theorem signalValues_cases (s : Session) (hs : List Handle) :
    (∃ d ∈ hs, s.signals.isLive d = false ∧ s.signalValues hs = .error (.invalidSignal d)) ∨
      (∀ d ∈ hs, s.signals.isLive d = true) ∧ ∃ values, s.signalValues hs = .ok values := by
  induction hs with
  | nil => exact .inr ⟨nofun, [], rfl⟩
  | cons h rest ih =>
    rw [signalValues]
    cases found : s.signals.get? h with
    | none => exact .inl ⟨h, .head _, congrArg Option.isSome found, rfl⟩
    | some signal =>
      rcases ih with ⟨d, named, gone, answer⟩ | ⟨live, values, answer⟩
      · exact .inl ⟨d, .tail _ named, gone, by rw [answer]; rfl⟩
      · refine .inr ⟨List.forall_mem_cons.mpr ⟨congrArg Option.isSome found, live⟩, ?_⟩
        exact ⟨_, by rw [answer]; rfl⟩

/-- Whoever looks at the signals of a barrier finds that one of them is gone, or else whether the
condition of the barrier holds. -/
theorem looks_barrierOpens (s : Session) (b : PendingBarrier) : b.Looks s (s.barrierOpens b) := by
  rcases s.signalValues_cases b.dependencies with ⟨d, named, gone, answer⟩ | ⟨live, _, answer⟩
  · rw [barrierOpens, answer]
    exact .stale ⟨named, gone⟩
  · have fresh : ∀ d, ¬ b.Stale s d := by
      rintro d ⟨named, gone⟩
      cases (live d named).symm.trans gone
    rcases told : s.barrierOpens b with cause | opens
    · rw [barrierOpens, answer] at told
      cases told
    · have unmet := barrierOpens_eq_ok told
      rw [← not_iff_not, ← PendingBarrier.met_iff fresh] at unmet
      cases opens with
      | true => exact .opens ⟨fresh, unmet.mp (by decide)⟩
      | false => exact .waits fresh fun met => unmet.mpr met rfl

/-- What a processor finds that examines a barrier. -/
inductive Finds (s : Session) (b : PendingBarrier) : Examined → Prop where
  | orphan {c : Handle} (named : b.completion = some c) (gone : s.signals.isLive c = false) :
      Finds s b (.failed (.invalidSignal c))
  | stale {d : Handle} (stale : b.Stale s d) : Finds s b (.failed (.invalidSignal d))
  | barrier (live : ∀ d, ¬ b.Stale s d) : Finds s b (.held b)

theorem packetSignal_cases (s : Session) (raw : UInt64) :
    raw ≠ 0 ∧ s.signals.isLive ⟨raw⟩ = false ∧
        s.packetSignal raw = .error (.invalidSignal ⟨raw⟩) ∨
      (raw ≠ 0 → s.signals.isLive ⟨raw⟩ = true) ∧
        s.packetSignal raw = .ok (if raw = 0 then none else some ⟨raw⟩) := by
  rw [packetSignal]
  by_cases zero : raw = 0
  · exact .inr ⟨fun nonzero => absurd zero nonzero, by simp [zero]⟩
  · cases live : s.signals.isLive ⟨raw⟩ with
    | false => exact .inl ⟨zero, rfl, by simp [zero]⟩
    | true => exact .inr ⟨fun _ => rfl, by simp [zero]⟩

theorem mapM_packetSignal_cases (s : Session) (raws : List UInt64) :
    (∃ raw ∈ raws, raw ≠ 0 ∧ s.signals.isLive ⟨raw⟩ = false ∧
        raws.mapM s.packetSignal = .error (.invalidSignal ⟨raw⟩)) ∨
      (∀ raw ∈ raws, raw ≠ 0 → s.signals.isLive ⟨raw⟩ = true) ∧
        ∃ found, raws.mapM s.packetSignal = .ok found := by
  induction raws with
  | nil => exact .inr ⟨nofun, [], rfl⟩
  | cons raw rest ih =>
    rw [List.mapM_cons]
    rcases s.packetSignal_cases raw with ⟨nonzero, gone, answer⟩ | ⟨live, answer⟩
    · exact .inl ⟨raw, .head _, nonzero, gone, by rw [answer]; rfl⟩
    rcases ih with ⟨other, listed, nonzero, gone, failed⟩ | ⟨others, found, resolved⟩
    · exact .inl ⟨other, .tail _ listed, nonzero, gone, by rw [answer, failed]; rfl⟩
    · refine .inr ⟨List.forall_mem_cons.mpr ⟨live, others⟩, ?_⟩
      exact ⟨_, by rw [answer, resolved]; rfl⟩

theorem finds_examineBarrier (s : Session) (barrier : Barrier) (all : Bool) :
    s.Finds (barrier.pending all) (s.examineBarrier barrier all) := by
  rcases s.packetSignal_cases barrier.completionSignal with ⟨nonzero, gone, answer⟩ | ⟨-, answer⟩
  · have failed : s.examineBarrier barrier all =
        .failed (.invalidSignal ⟨barrier.completionSignal⟩) := by
      rw [examineBarrier, answer]
      rfl
    rw [failed]
    exact .orphan (if_neg nonzero) gone
  rcases s.mapM_packetSignal_cases barrier.dependencies.toList with
    ⟨raw, listed, nonzero, gone, missing⟩ | ⟨live, found, resolved⟩
  · have failed : s.examineBarrier barrier all = .failed (.invalidSignal ⟨raw⟩) := by
      rw [examineBarrier, answer, missing]
      rfl
    rw [failed]
    exact .stale ⟨PendingBarrier.mem_dependencies.mpr ⟨nonzero, listed⟩, gone⟩
  · obtain ⟨b, held⟩ : ∃ b, s.examineBarrier barrier all = .held b := by
      rw [examineBarrier, answer, resolved]
      exact ⟨_, rfl⟩
    rw [held, examineBarrier_eq_held held]
    refine .barrier fun d stale => ?_
    obtain ⟨nonzero, listed⟩ := PendingBarrier.mem_dependencies.mp stale.1
    cases (live d.raw listed nonzero).symm.trans stale.2

/-- A processor that examines a barrier finds that its completion signal is gone, or one of those
that it depends on, or else comes to hold it. -/
theorem finds_examine (found : (q.ring.read index).pendingBarrier? = some b) :
    ∃ examined, s.examine q index (q.ring.word index) = (examined, s) ∧ s.Finds b examined := by
  have header : (q.ring.read index).header = Header.ofWord (q.ring.word index) := rfl
  rw [Slot.pendingBarrier?, header] at found
  rw [examine]
  cases type : (Header.ofWord (q.ring.word index)).type? with
  | none =>
    rw [type] at found
    cases found
  | some kind =>
    rw [type] at found
    cases kind with
    | kernelDispatch | vendorSpecific | invalid | agentDispatch => cases found
    | barrierAnd | barrierOr =>
      cases found
      exact ⟨_, rfl, s.finds_examineBarrier _ _⟩

end Session

end Accelerator
