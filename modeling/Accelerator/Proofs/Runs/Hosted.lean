import Accelerator.Proofs.Runs.Outcomes

/-!
# Runs on sound hosts

Where blocks of memory lie is the host's choice, and it may even change its mind from one step to
the next. What holds of memory needs one thing of it: the host must be *sound*, that is, the block
that it hands out next lies apart from all allocations. A run on sound hosts may pass through an
unsound one, as long as no step is taken there.

The host that the library runs with hands out ascending blocks. It is sound in every session that
its runs lead to, so all that holds of runs on sound hosts holds of its runs.

## Hosts as parameters

Nothing is assumed of the host but what a result needs. `Session.Hosted` asks for soundness at each
step and `Session.Reachable` for nothing: results that do not depend on where blocks lie are about
the latter. `Session.Ascending` is for examples, where addresses have to be known.

## Main definitions

* `Session.Hosted`: the sessions that runs on sound hosts lead to.
* `Session.Ascending`: those that runs on the host of the library lead to.

## Main results

* `Session.Step.change`: what a step does to the memory map.
* `Session.Hosted.memory`: along runs on sound hosts the memory map is well-formed.
* `Session.Ascending.step`: ascending blocks are sound.
-/

namespace Accelerator

namespace Session

open Accelerator.Action

variable {s t : Session} {q : Queue} {h : Handle}

/-! ### Tearing queues down -/

/-- A queue gives back its place, and its doorbell if it has one of its own. -/
def giveUpPlace (s : Session) (q : Queue) : Session :=
  match q.agent with
  | some a =>
    let s := s.modifyAgent a (·.dropQueue)
    match s.signals.remove q.doorbell id with
    | some (_, signals) => { s with signals }
    | none => s
  | none => { s with softQueues := s.softQueues - 1 }

theorem giveUpPlace_cases (s : Session) (q : Queue) :
    (∃ a signals, q.agent = some a ∧
        s.giveUpPlace q = { s.modifyAgent a (·.dropQueue) with signals }) ∨
      q.agent = none ∧ s.giveUpPlace q = { s with softQueues := s.softQueues - 1 } := by
  rw [giveUpPlace]
  cases q.agent with
  | none => exact .inr ⟨rfl, rfl⟩
  | some a =>
    dsimp only
    split
    · exact .inl ⟨a, _, rfl, rfl⟩
    · exact .inl ⟨a, s.signals, rfl, rfl⟩

theorem memory_giveUpPlace (s : Session) (q : Queue) : (s.giveUpPlace q).memory = s.memory := by
  rcases s.giveUpPlace_cases q with ⟨a, signals, -, same⟩ | ⟨-, same⟩
  · rw [same]
    rfl
  · rw [same]

/-- Tearing a queue down gives up its place and takes back the memory of its ring. -/
theorem tearDown_cases (s : Session) (q : Queue) :
    s.tearDown q = s.giveUpPlace q ∧ (q.ringAllocation = none ∨ ∃ address e,
        q.ringAllocation = some address ∧ s.memory.free address .queueRing = .error e) ∨
      ∃ address a memory, q.ringAllocation = some address ∧
        s.memory.free address .queueRing = .ok (a, memory) ∧
        s.tearDown q = { s.giveUpPlace q with memory }.releaseAllocation a := by
  rw [tearDown]
  cases q.ringAllocation with
  | none => exact .inl ⟨rfl, .inl rfl⟩
  | some address =>
    have memory := s.memory_giveUpPlace q
    rcases freeBlock_cases address .queueRing (s.giveUpPlace q) with
      ⟨⟨e, refused⟩, same⟩ | ⟨a, memory', freed, same⟩
    · exact .inl ⟨same, .inr ⟨address, e, rfl, memory ▸ refused⟩⟩
    · exact .inr ⟨address, a, memory', rfl, memory ▸ freed, same⟩

theorem memory_tearDown (s : Session) (q : Queue) : (s.tearDown q).memory = s.memory ∨
    ∃ address a, s.memory.free address .queueRing = .ok (a, (s.tearDown q).memory) := by
  rcases s.tearDown_cases q with ⟨same, -⟩ | ⟨address, a, memory, -, freed, same⟩
  · exact .inl (same ▸ s.memory_giveUpPlace q)
  · exact .inr ⟨address, a, by rw [same]; exact freed⟩

/-- The ring of a hardware queue is no allocation. -/
theorem memory_tearDown_of_none (s : Session) (none : q.ringAllocation = none) :
    (s.tearDown q).memory = s.memory := by
  rcases s.tearDown_cases q with ⟨same, -⟩ | ⟨address, _, _, ring, -⟩
  · exact same ▸ s.memory_giveUpPlace q
  · cases none.symm.trans ring

/-- However many queues are torn down, the rest of memory is what it was. -/
theorem releaseAll_withoutQueues (s : Session) :
    s.withoutQueues.memory.releaseAll = s.memory.releaseAll := by
  have kept : ∀ (qs : List Queue) (m : Session),
      (qs.foldl tearDown m).memory.releaseAll = m.memory.releaseAll := by
    intro qs
    induction qs with
    | nil => exact fun m => rfl
    | cons q rest ih =>
      intro m
      refine (ih (m.tearDown q)).trans ?_
      rcases m.memory_tearDown q with same | ⟨address, a, freed⟩
      · rw [same]
      · rw [(Memory.free_eq_ok freed).2.2]
        rfl
  exact kept s.queues.values { s with queues := s.queues.drain Queue.destroy }

/-- Regions with the bytes of some blocks taken off their accounts. -/
def releaseBlocks (blocks : List (UInt64 × Allocation)) (regions : Arena Region) : Arena Region :=
  blocks.foldl (fun regions entry => regions.modify entry.2.region (·.release entry.2.size)) regions

theorem releaseMemory_eq (s : Session) : s.releaseMemory =
    { s with
      regions := releaseBlocks s.memory.allocations s.regions
      memory := s.memory.releaseAll } := by
  have each : ∀ (blocks : List (UInt64 × Allocation)) (m : Session),
      blocks.foldl (fun m entry => m.releaseAllocation entry.2) m =
        { m with regions := releaseBlocks blocks m.regions } := by
    intro blocks
    induction blocks with
    | nil => exact fun m => rfl
    | cons entry rest ih => exact fun m => ih (m.releaseAllocation entry.2)
  rw [releaseMemory, each]

/-! ### The memory map along a run -/

theorem change_refl (m : Memory) : m.Change m :=
  .fill m.contents

theorem SameAccounts.change (same : s.SameAccounts t) : s.memory.Change t.memory := by
  obtain ⟨contents, refilled⟩ := same.memory
  exact refilled ▸ .fill contents

/-- An operation changes the memory map once at most. -/
theorem Effect.change (effect : s.Effect t) : s.memory.Change t.memory := by
  cases effect with
  | routine routine => exact routine.sameAccounts.change
  | createSignal => exact change_refl _
  | allocate _ _ taken => exact .allocate taken
  | free freed => exact .free freed
  | assign given => exact .assign given
  | serve served => exact .serve served
  | register address size count => exact .register address size count
  | createQueue placement => exact .serve placement.served
  | @withdrawQueue _ _ a _ host _ _ q queues placement made =>
    have kept := memory_tearDown_of_none { s.withHardwareQueue a q host with queues }
      (q := q.destroy) (congrArg Queue.ringAllocation made)
    rw [kept]
    exact .serve placement.served
  | createSoftQueue _ _ _ taken => exact .allocate taken
  | @destroyQueue h q queues removed =>
    rcases memory_tearDown { s with queues } q with kept | ⟨address, a, freed⟩
    · rw [kept]
      exact change_refl _
    · exact .free freed
  | shutDown =>
    rw [ended, releaseMemory_eq]
    change s.memory.Change s.withoutQueues.memory.releaseAll
    rw [releaseAll_withoutQueues]
    exact .releaseAll

/-- A step changes the memory map once at most. -/
theorem Step.change {turn : Turn} (step : Step turn s t) (wf : s.WellFormed) :
    s.memory.Change t.memory := by
  cases step with
  | @application _ o room =>
    rcases reloads_or_effect room wf.queues o with reloads | effect
    · exact reloads.sameAccounts.change
    · exact effect.change
  | processor live stepped =>
    obtain ⟨p, deeds, -, move⟩ := Move.exists_of_stepProcessor? stepped
    exact move.sameAccounts.change

/-! ### Hosts -/

/-- The sessions that runs lead to on hosts that are sound whenever a step is taken. -/
inductive Hosted : Session → Prop where
  | opened {c : Config} {s : Session} (opened : openConfig c = .ok s) : Hosted s
  | rehost {s : Session} (before : Hosted s) (host : Host) : Hosted (s.rehost host)
  | step {turn : Turn} {s t : Session} (before : Hosted s) (sound : s.memory.HostSound)
      (step : Step turn s t) : Hosted t

theorem Hosted.reachable (hosted : s.Hosted) : s.Reachable := by
  induction hosted with
  | opened opened => exact .opened opened
  | rehost _ host before => exact before.rehost host
  | step _ _ step before => exact before.step step

theorem Hosted.wellFormed (hosted : s.Hosted) : s.WellFormed :=
  hosted.reachable.wellFormed

theorem openConfig_eq_ok {c : Config} (opened : openConfig c = .ok s) : s = ofConfig c := by
  rw [openConfig] at opened
  split at opened
  · exact (Except.ok.inj opened).symm
  · cases opened

/-- Allocations stand in order and lie apart. -/
theorem Hosted.memory (hosted : s.Hosted) : s.memory.WellFormed := by
  induction hosted with
  | opened opened =>
    rw [openConfig_eq_ok opened]
    exact ⟨nofun, .nil, nofun⟩
  | rehost _ host wf => exact ⟨wf.placed, wf.ordered, wf.counted⟩
  | step before sound step wf => exact (step.change before.wellFormed).wellFormed wf sound

/-- The sessions that runs lead to on the host that the library runs with. -/
structure Ascending (s : Session) : Prop where
  hosted : s.Hosted
  ascends : s.memory.Ascends

theorem Ascending.opened {c : Config} (opened : openConfig c = .ok s) : s.Ascending := by
  refine ⟨.opened opened, ?_⟩
  rw [openConfig_eq_ok opened]
  exact ⟨rfl, nofun⟩

/-- Ascending blocks are sound along every run. -/
theorem Ascending.step {turn : Turn} (before : s.Ascending) (step : Step turn s t) :
    t.Ascending where
  hosted := .step before.hosted (before.ascends.hostSound before.hosted.memory) step
  ascends := (step.change before.hosted.wellFormed).ascends before.hosted.memory before.ascends

end Session

end Accelerator
